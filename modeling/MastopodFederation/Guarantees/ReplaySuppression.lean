import MastopodFederation.Source.ProfileUpdateToApProjector

/-!
# What the projection ledger suppresses

The ledger holds the ids of the intents that were published; an id is a digest of some fields of
the event. An event whose digested fields came up before is taken for a replay. The last
commands published for a record are those of its latest event exactly when every such event
asks for what the record's event just before it asked for.
-/
namespace MastopodFederation.Guarantees.ReplaySuppression
open Lib.LuaTable Source Source.CanonicalIntent Source.AtEnvelope Source.BskyTranslators
open Source.SocialTranslators Source.AtToApProjectionWorker Source.ProfileUpdateToApProjector

def Finished (digests : Digests) (intent : Intent) : Prop :=
  intent.canonicalIntentId = buildCanonicalIntentId digests intent.toDraft

section
variable {digests : Digests} {ctx : Context} {input : Json} {intent : Intent}

theorem finished_finish (draft : Draft) : Finished digests (draft.finish digests) := rfl

theorem finished_gate {collection rules : String}
    {policies : Bool → Option GateRecord → Option ReplyPolicy × Option QuotePolicy}
    (h : (gateTranslator digests ctx collection rules policies).translate input = some intent) :
    Finished digests intent := by
  obtain ⟨envelope, -, h⟩ := Option.bind_eq_some_iff.mp h
  obtain ⟨rkey, -, rfl⟩ := Option.map_eq_some_iff.mp h
  exact finished_finish _

theorem finished_map {E : Type} {envelope : Option E} {f : E → Intent}
    (finished : ∀ e, Finished digests (f e)) (h : envelope.map f = some intent) :
    Finished digests intent := by
  obtain ⟨e, -, rfl⟩ := Option.map_eq_some_iff.mp h
  exact finished e

theorem finished_some {i : Intent} (finished : Finished digests i) (h : some i = some intent) :
    Finished digests intent := by
  obtain rfl := Option.some.inj h
  exact finished

theorem finished_social {R : Type} {collection : String}
    {read : Json → Option (BaseEnvelope × R)} {build : BaseEnvelope × R → Option Intent}
    {buildDelete : BaseEnvelope → Option Intent}
    (built : ∀ {e}, build e = some intent → Finished digests intent)
    (deleted : ∀ {e}, buildDelete e = some intent → Finished digests intent)
    (h : translateEnvelope ctx collection read build buildDelete input = some intent) :
    Finished digests intent := by
  unfold translateEnvelope at h
  split at h
  · exact built h
  · obtain ⟨envelope, -, h⟩ := Option.bind_eq_some_iff.mp h
    exact deleted h

theorem finished_translate (h : translate digests ctx input = some intent) :
    Finished digests intent := by
  obtain ⟨translator, listed, h⟩ := List.exists_of_findSome?_eq_some h
  split at h
  case isFalse => cases h
  simp only [atprotoToCanonicalTranslators, List.mem_cons, List.not_mem_nil, or_false] at listed
  rcases listed with
    rfl | rfl | rfl | rfl | rfl | rfl | rfl | rfl | rfl | rfl | rfl
  · exact finished_map (fun _ => finished_finish _) h
  · exact finished_map (fun _ => finished_finish _) h
  · exact finished_gate h
  · exact finished_gate h
  · exact finished_map (fun _ => finished_finish _) h
  · exact finished_social (finished_map fun _ => finished_finish _)
      (finished_map fun _ => finished_finish _) h
  · exact finished_social (finished_some (finished_finish _))
      (finished_map fun _ => finished_finish _) h
  · exact finished_social (finished_some (finished_finish _))
      (finished_map fun _ => finished_finish _) h
  · exact finished_social (finished_some (finished_finish _))
      (finished_map fun _ => finished_finish _) h
  · exact finished_map (fun _ => finished_finish _) h
  · exact finished_map (fun _ => finished_finish _) h

end

def isRecordKind : Kind → Bool
  | .postCreate | .postEdit | .profileUpdate => true
  | _ => false

section
variable (worker : Worker)

def projection (intent : Intent) : Projection :=
  projectWith worker.projectors (mergePolicyWarnings intent (worker.policy intent).warnings)

def commands? (intent : Intent) : Option (List Command) :=
  match projection worker intent with
  | .success commands _ _ => some commands
  | _ => none

def accepts (event : Json) : Bool :=
  (translate worker.digests worker.context event).any fun intent =>
    isRecordKind intent.body.kind && !isLoopback intent && (worker.policy intent).allowed &&
      (commands? worker intent).isSome

structure AcceptedEvent where
  event : Json
  intent : Intent
  commands : List Command
  translated : translate worker.digests worker.context event = some intent
  kind : isRecordKind intent.body.kind = true
  native : isLoopback intent = false
  allowed : (worker.policy intent).allowed = true
  projected : commands? worker intent = some commands

end

section
variable {worker : Worker}

def AcceptedEvent.record (e : AcceptedEvent worker) : String := e.intent.sourceEventId

theorem AcceptedEvent.ext_event {a b : AcceptedEvent worker} (h : a.event = b.event) :
    a.intent = b.intent ∧ a.commands = b.commands := by
  have same : a.intent = b.intent := by
    have := a.translated.symm.trans (h ▸ b.translated)
    exact Option.some.inj this
  refine ⟨same, ?_⟩
  have := a.projected.symm.trans (same ▸ b.projected)
  exact Option.some.inj this

def answered : Nat → Except Retry.Thrown Unit := fun _ => .ok ()

def step (w : World) (e : AcceptedEvent worker) : World := (process worker answered e.event w).1

def run (events : List (AcceptedEvent worker)) : World := events.foldl step World.initial

@[simp] theorem run_concat (events : List (AcceptedEvent worker)) (e : AcceptedEvent worker) :
    run (events ++ [e]) = step (run events) e := by
  simp [run]

structure Digested where
  sourceProtocol : Protocol
  sourceEventId : String
  actor : String
  kind : Kind
  target : String
  content : ContentFields
  deriving DecidableEq

def AcceptedEvent.digested (e : AcceptedEvent worker) : Digested where
  sourceProtocol := e.intent.sourceProtocol
  sourceEventId := e.intent.sourceEventId
  actor := canonicalActorIdentityKey e.intent.sourceAccountRef
  kind := e.intent.body.kind
  target := normalizedTarget e.intent.toDraft
  content := contentFields worker.digests e.intent.toDraft

theorem digest_of_record {digests : Digests} {draft : Draft}
    (record : isRecordKind draft.body.kind = true) :
    normalizedContentDigest digests draft = digests.content (contentFields digests draft) := by
  unfold normalizedContentDigest contentFields
  cases body : draft.body <;> simp_all [isRecordKind, Body.kind, postFields]

theorem id_eq (e : AcceptedEvent worker) :
    e.intent.canonicalIntentId = worker.digests.payload
      { sourceProtocol := e.digested.sourceProtocol
        sourceEventId := e.digested.sourceEventId
        actor := e.digested.actor
        kind := e.digested.kind
        target := e.digested.target
        contentDigest := worker.digests.content e.digested.content } := by
  rw [finished_translate e.translated, buildCanonicalIntentId, digest_of_record e.kind]
  rfl

theorem id_eq_iff (content : Function.Injective worker.digests.content)
    (payload : Function.Injective worker.digests.payload) (a b : AcceptedEvent worker) :
    a.intent.canonicalIntentId = b.intent.canonicalIntentId ↔ a.digested = b.digested := by
  rw [id_eq, id_eq]
  constructor
  · intro h
    have fields := payload h
    simp only [IdPayload.mk.injEq] at fields
    obtain ⟨protocol, event, actor, kind, target, digest⟩ := fields
    have := content digest
    cases ha : a.digested
    cases hb : b.digested
    simp_all
  · intro h
    rw [h]

variable {w : World} {e : AcceptedEvent worker}

theorem step_seen
    (seen : w.projectedToActivityPub e.intent.canonicalIntentId = true) : step w e = w := by
  simp [step, process, e.translated, processIntent, e.native, seen]

theorem step_new (new : w.projectedToActivityPub e.intent.canonicalIntentId = false) : step w e =
      (w.publish 1 e.intent e.commands).markProjected e.intent.canonicalIntentId := by
  have projected := e.projected
  unfold commands? projection at projected
  split at projected
  case h_2 => cases projected
  case h_1 commands lossiness warnings success =>
    obtain rfl := Option.some.inj projected
    have once : retryFrom answered (worker.maxAttempts - 1) 1 = (1, .ok ()) := by
      cases worker.maxAttempts - 1 <;> rfl
    simp [step, process, e.translated, processIntent, e.native, new, projectIntent, e.allowed,
      success, once]

theorem seen_run (events : List (AcceptedEvent worker)) (id : String) :
    (run events).projectedToActivityPub id = true ↔
      ∃ old ∈ events, old.intent.canonicalIntentId = id := by
  induction events using List.reverseRecOn with
  | nil => simp [run, World.initial]
  | append_singleton events e ih =>
    rw [run_concat]
    by_cases seen : (run events).projectedToActivityPub e.intent.canonicalIntentId = true
    · rw [step_seen seen, ih]
      constructor
      · rintro ⟨old, listed, same⟩
        exact ⟨old, by simp [listed], same⟩
      · rintro ⟨old, listed, same⟩
        rcases List.mem_append.mp listed with listed | last
        · exact ⟨old, listed, same⟩
        · obtain rfl := List.mem_singleton.mp last
          exact ih.mp (same ▸ seen)
    · rw [step_new (by simpa using seen)]
      simp only [World.markProjected, World.publish, Bool.or_eq_true, decide_eq_true_eq, ih]
      constructor
      · rintro (rfl | ⟨old, listed, same⟩)
        · exact ⟨e, by simp, rfl⟩
        · exact ⟨old, by simp [listed], same⟩
      · rintro ⟨old, listed, same⟩
        rcases List.mem_append.mp listed with listed | last
        · exact .inr ⟨old, listed, same⟩
        · obtain rfl := List.mem_singleton.mp last
          exact .inl same.symm

def latestOf (record : String) (events : List (AcceptedEvent worker)) :
    Option (AcceptedEvent worker) :=
  events.reverse.find? fun e => e.record = record

def lastPublished (record : String) (w : World) : Option (List Command) :=
  (w.published.reverse.find? fun batch => batch.1.sourceEventId = record).map (·.2)

theorem latestOf_concat (record : String) (events : List (AcceptedEvent worker))
    (e : AcceptedEvent worker) :
    latestOf record (events ++ [e]) =
      if e.record = record then some e else latestOf record events := by
  by_cases same : e.record = record <;> simp [latestOf, same]

variable {events : List (AcceptedEvent worker)}

theorem latestOf_of_mem {record : String}
    {old : AcceptedEvent worker} (listed : old ∈ events) (same : old.record = record) :
    ∃ latest, latestOf record events = some latest := by
  rw [← Option.isSome_iff_exists, latestOf, List.find?_isSome]
  exact ⟨old, by simpa using listed, by simpa using same⟩

theorem latestOf_mem {record : String}
    {latest : AcceptedEvent worker} (h : latestOf record events = some latest) :
    latest ∈ events ∧ latest.record = record :=
  ⟨by simpa using List.mem_of_find?_eq_some h, by simpa using List.find?_some h⟩

theorem lastPublished_new (record : String)
    (new : w.projectedToActivityPub e.intent.canonicalIntentId = false) :
    lastPublished record (step w e) =
      if e.record = record then some e.commands else lastPublished record w := by
  rw [step_new new]
  by_cases same : e.record = record
  · have : e.intent.sourceEventId = record := same
    simp [lastPublished, World.publish, World.markProjected, same, this]
  · have : ¬ e.intent.sourceEventId = record := same
    simp [lastPublished, World.publish, World.markProjected, same, this]

def ProjectsLatest (events : List (AcceptedEvent worker)) : Prop :=
  ∀ done, done <+: events → ∀ record latest, latestOf record done = some latest →
    lastPublished record (run done) = some latest.commands

def IgnoresReplays (events : List (AcceptedEvent worker)) : Prop :=
  ∀ done e latest, done ++ [e] <+: events → latestOf e.record done = some latest →
    latest.event = e.event → (run (done ++ [e])).published = (run done).published

/-- Where digested fields come up again, the event asks for what its record's event just before
asked for. -/
def RepeatsAreReplays (events : List (AcceptedEvent worker)) : Prop :=
  ∀ done e, done ++ [e] <+: events → (∃ old ∈ done, old.digested = e.digested) →
    ∃ latest, latestOf e.record done = some latest ∧ latest.commands = e.commands

theorem ignoresReplays (events : List (AcceptedEvent worker)) : IgnoresReplays events := by
  intro done e latest _ before again
  have seen : (run done).projectedToActivityPub e.intent.canonicalIntentId = true :=
    (seen_run done _).mpr ⟨latest, (latestOf_mem before).1, by
      rw [(AcceptedEvent.ext_event again).1]⟩
  rw [run_concat, step_seen seen]

theorem repeats_of_projectsLatest
    (latestProjected : ProjectsLatest events) : RepeatsAreReplays events := by
  rintro done e within ⟨old, listed, same⟩
  have record : old.record = e.record := congrArg Digested.sourceEventId same
  obtain ⟨latest, before⟩ := latestOf_of_mem listed record
  refine ⟨latest, before, ?_⟩
  have seen : (run done).projectedToActivityPub e.intent.canonicalIntentId = true :=
    (seen_run done _).mpr ⟨old, listed, by rw [id_eq, id_eq, same]⟩
  have previous := latestProjected done ((List.prefix_append ..).trans within) _ _ before
  have now := latestProjected (done ++ [e]) within e.record e (by simp [latestOf_concat])
  rw [run_concat, step_seen seen, previous] at now
  exact Option.some.inj now

theorem projectsLatest_of_repeats (content : Function.Injective worker.digests.content)
    (payload : Function.Injective worker.digests.payload)
    (replays : RepeatsAreReplays events) : ProjectsLatest events := by
  intro done
  induction done using List.reverseRecOn with
  | nil =>
    intro _ record latest h
    simp [latestOf] at h
  | append_singleton done e ih =>
    intro within record latest h
    have before := ih ((List.prefix_append ..).trans within)
    rw [latestOf_concat] at h
    rw [run_concat]
    by_cases seen : (run done).projectedToActivityPub e.intent.canonicalIntentId = true
    · obtain ⟨old, listed, same⟩ := (seen_run done _).mp seen
      obtain ⟨previous, isLatest, commands⟩ :=
        replays done e within ⟨old, listed, (id_eq_iff content payload _ _).mp same⟩
      rw [step_seen seen]
      split at h
      case isTrue record =>
        obtain rfl := Option.some.inj h
        rw [← commands, ← record]
        exact before _ _ isLatest
      case isFalse => exact before _ _ h
    · rw [lastPublished_new record (by simpa using seen)]
      split at h
      case isTrue sameRecord =>
        obtain rfl := Option.some.inj h
        simp [sameRecord]
      case isFalse other =>
        rw [if_neg other]
        exact before _ _ h

/-- The ledger suppresses replays and nothing else exactly when digested fields come up again in
replays alone. -/
theorem suppresses_replays_iff (content : Function.Injective worker.digests.content)
    (payload : Function.Injective worker.digests.payload) (events : List (AcceptedEvent worker)) :
    ProjectsLatest events ∧ IgnoresReplays events ↔ RepeatsAreReplays events :=
  ⟨fun h => repeats_of_projectsLatest h.1,
    fun h => ⟨projectsLatest_of_repeats content payload h, ignoresReplays events⟩⟩

end

instance countableChar : Countable Char := Function.Injective.countable fun _ _ h => Char.toNat_inj.mp h

instance countableString : Countable String := Function.Injective.countable fun _ _ h => String.toList_inj.mp h

deriving instance Countable for ActorRef, Facet, CustomEmoji, AttachmentRole, Attachment,
  ContentKind, ReplyPolicy, QuotePolicy, ContentFields, Protocol, Kind, IdPayload

theorem exists_digest (α : Type) [Countable α] :
    ∃ digest : α → String, Function.Injective digest := by
  obtain ⟨index, injective⟩ := exists_injective_nat α
  refine ⟨fun a => String.ofList (List.replicate (index a) 'a'), fun a b h => injective ?_⟩
  have := congrArg (fun text : String => text.toList.length) h
  simpa using this

noncomputable def bridgeDigests : Digests where
  content := (exists_digest ContentFields).choose
  payload := (exists_digest IdPayload).choose
  toLowerCase := id

def bridgeContext : Context where
  now := "2026-01-01T00:00:00.000Z"
  resolveActorRef ref :=
    { ref with activityPubActorUri := ref.did.map fun did => s!"https://bridge.example/{did}" }
  resolveObjectRef := id
  resolveBlobUrl did cid := some s!"https://cdn.example/{did}/{cid}"
  isUrl _ := true
  looksLikeMarkdown _ := false
  renderMarkdownToHtml := id
  htmlToCanonicalBlocks _ := []
  atFacetsToCanonicalFacets _ _ := []
  parseCustomEmojiField _ := []
  normalizeReactionContent := some
  fetchLinkPreview _ := none

noncomputable def bridgeWorker : Worker where
  digests := bridgeDigests
  context := bridgeContext
  projectors := [profileUpdateToApProjector bridgeContext some]
  policy _ := ⟨true, []⟩
  maxAttempts := 5

def profileNamed (name : String) : Json := .obj
  [("repoDid", .str "did:plc:ada"),
    ("uri", .str "at://did:plc:ada/app.bsky.actor.profile/self"),
    ("rkey", .str "self"),
    ("collection", .str "app.bsky.actor.profile"),
    ("operation", .str "update"),
    ("record", .obj [("$type", .str "app.bsky.actor.profile"), ("displayName", .str name)])]

theorem exists_accepted {worker : Worker} {event : Json} (h : accepts worker event = true) :
    ∃ e : AcceptedEvent worker, e.event = event := by
  obtain ⟨intent, translated, h⟩ := (Option.any_eq_true ..).mp h
  simp only [Bool.and_eq_true, Bool.not_eq_true', Option.isSome_iff_exists] at h
  obtain ⟨⟨⟨kind, native⟩, allowed⟩, commands, projected⟩ := h
  exact ⟨⟨event, intent, commands, translated, kind, native, allowed, projected⟩, rfl⟩

def nameIn (commands : List Command) : Option String := do
  let activity ← plainObject (some (← commands.head?).activity)
  let person ← plainObject (activity.lookup "object")
  trimmedText (person.lookup "name")

def recordAndName (worker : Worker) (event : Json) : Option (String × Option String) := do
  let intent ← translate worker.digests worker.context event
  let commands ← commands? worker intent
  return (intent.sourceEventId, nameIn commands)

theorem AcceptedEvent.recordAndName_eq {worker : Worker} (e : AcceptedEvent worker) :
    recordAndName worker e.event = some (e.record, nameIn e.commands) := by
  simp [recordAndName, e.translated, e.projected, AcceptedEvent.record]

theorem profile_accepted :
    accepts bridgeWorker (profileNamed "Ada") = true ∧
      accepts bridgeWorker (profileNamed "Bea") = true := by
  decide +kernel

theorem returned_profile_lost :
    Function.Injective bridgeWorker.digests.content ∧
      Function.Injective bridgeWorker.digests.payload ∧
      ∃ events : List (AcceptedEvent bridgeWorker),
        events.map (·.event) = [profileNamed "Ada", profileNamed "Bea", profileNamed "Ada"] ∧
          ¬ (ProjectsLatest events ∧ IgnoresReplays events) := by
  obtain ⟨ada, isAda⟩ := exists_accepted profile_accepted.1
  obtain ⟨bea, isBea⟩ := exists_accepted profile_accepted.2
  have adaFields := ada.recordAndName_eq
  have beaFields := bea.recordAndName_eq
  have expectedAda : recordAndName bridgeWorker (profileNamed "Ada") =
      some ("at://did:plc:ada/app.bsky.actor.profile/self", some "Ada") := by decide +kernel
  have expectedBea : recordAndName bridgeWorker (profileNamed "Bea") =
      some ("at://did:plc:ada/app.bsky.actor.profile/self", some "Bea") := by decide +kernel
  rw [isAda, expectedAda] at adaFields
  rw [isBea, expectedBea] at beaFields
  simp only [Option.some.injEq, Prod.mk.injEq] at adaFields beaFields
  refine ⟨(exists_digest _).choose_spec, (exists_digest _).choose_spec, [ada, bea, ada],
    by simp [isAda, isBea], fun h => ?_⟩
  obtain ⟨latest, isLatest, same⟩ := repeats_of_projectsLatest h.1 [ada, bea] ada
    (List.prefix_refl _) ⟨ada, by simp, rfl⟩
  have : latest = bea := by
    simpa [latestOf, ← adaFields.1, ← beaFields.1, eq_comm] using isLatest
  have names := congrArg nameIn same
  rw [this, ← beaFields.2, ← adaFields.2] at names
  revert names
  decide

theorem profile_sent_twice :
    ∃ events : List (AcceptedEvent bridgeWorker),
      events.map (·.event) = [profileNamed "Ada", profileNamed "Ada"] ∧
        ProjectsLatest events ∧ IgnoresReplays events := by
  obtain ⟨ada, isAda⟩ := exists_accepted profile_accepted.1
  refine ⟨[ada, ada], by simp [isAda],
    (suppresses_replays_iff (exists_digest _).choose_spec (exists_digest _).choose_spec _).mpr ?_⟩
  rintro done e within ⟨old, listed, -⟩
  have member : ∀ other ∈ done ++ [e], other = ada := fun other h => by
    simpa using within.subset h
  obtain rfl := member old (by simp [listed])
  obtain ⟨latest, isLatest⟩ := latestOf_of_mem listed rfl
  have : latest = old := member latest (by simp [(latestOf_mem isLatest).1])
  have : e = old := member e (by simp)
  subst_vars
  exact ⟨_, isLatest, rfl⟩

end MastopodFederation.Guarantees.ReplaySuppression
