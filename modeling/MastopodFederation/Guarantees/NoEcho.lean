import MastopodFederation.Guarantees.UndoTopics
import MastopodFederation.Source.ApToAtProjectionWorker

/-!
# Echoes across the bridge

Both workers tell their own writes by the mode of the provenance alone. A returned operation is
passed over where its event carries the metadata of the command and the mode there is mirrored;
the verified firehose carries no metadata, and no projector sets the mode.
-/
namespace MastopodFederation.Guarantees.NoEcho
open Lib.LuaTable Lib.Schema Source Source.CanonicalIntent Source.AtEnvelope
open Source.ProtocolBridgeRuntime Source.SocialTranslators Source.AtEventHandlers
open Source.ApToAtProjectionWorker AtTranslation

structure RecordWrite where
  op : RepoOp
  subject : AliasSubject
  cid : String
  command : Option Envelope

def RecordWrite.bridge (r : RecordWrite) : Option Json :=
  r.command.bind fun command => asBridgeMetadata (some (.obj (commandMetadata command)))

def RecordWrite.entries (r : RecordWrite) : Entries :=
  persistedOp { r.op with bridge := r.bridge } r.subject r.cid

inductive Carriage where
  | bare
  | wrapped (outboxIntentId : Option Json) (metadata : Bool)

structure LocalActivity where
  activity : Entries
  carriage : Carriage
  command : Option Envelope

def LocalActivity.event (a : LocalActivity) : Json :=
  match a.carriage with
  | .bare => .obj a.activity
  | .wrapped outboxIntentId metadata => .obj (present
      [("activity", some (.obj a.activity)),
        ("bridge", if metadata then a.command.map fun command => .obj (commandMetadata command)
          else none),
        ("outboxIntentId", outboxIntentId)])

inductive Event where
  | commit (did : String) (ops : List (RecordWrite × (Nat → Except Retry.Thrown Unit)))
  | ingress (write : RecordWrite) (cid : Option String) (answer : Nat → Except Retry.Thrown Unit)
  | source (activity : LocalActivity) (clock : Readings)
      (answer : Nat → Except Retry.Thrown Unit)

structure Bridge (I C : Type) where
  rt : Runtime
  toAp : AtToApProjectionWorker.Worker
  toAt : Worker I C
  printed : Option Json → String

structure State (I C : Type) where
  memory : Memory
  toAp : AtToApProjectionWorker.World
  toAt : World I C

section
variable {I C : Type} (b : Bridge I C)

def answersOf (ops : List (RecordWrite × (Nat → Except Retry.Thrown Unit))) :
    Nat → Nat → Except Retry.Thrown Unit :=
  fun place => (ops[place]?.map (·.2)).getD fun _ => .ok ()

def commitEvent (did : String) (ops : List (RecordWrite × (Nat → Except Retry.Thrown Unit))) :
    Json :=
  atCommitEvent did (ops.map (·.1.entries))

def step (s : State I C) : Event → State I C
  | .commit did ops => { s with
      toAp := (handleAtCommitEvent b.toAp b.printed (answersOf ops) (commitEvent did ops) s.toAp).1 }
  | .ingress write cid answer => { s with
      toAp := (handleAtVerifiedIngressEvent b.toAp answer (atIngressEvent write.op cid) s.toAp).1 }
  | .source activity clock answer =>
    let (memory, toAt) := handleSource b.toAt b.rt answer clock activity.event s.memory s.toAt
    { s with memory, toAt }

def run (s : State I C) (events : List Event) : State I C := events.foldl (step b) s

end

def RecordWrite.isReturned (r : RecordWrite) : Bool :=
  r.command.any fun command => command.provenance.originProtocol = .activitypub

def LocalActivity.isReturned (a : LocalActivity) : Bool :=
  a.command.any fun command => command.provenance.originProtocol = .atproto

def Event.others : Event → Event
  | .commit did ops => .commit did (ops.filter fun op => !op.1.isReturned)
  | .ingress write cid answer =>
    if write.isReturned then .commit write.op.did [] else .ingress write cid answer
  | .source activity clock answer =>
    if activity.isReturned then .commit "" [] else .source activity clock answer

/-- The mode that the workers know their own writes by, of a command for an intent of one of the
two networks. -/
def Envelope.isMirrored (e : Envelope) : Bool :=
  e.provenance.projectionMode = .mirrored && e.sourceProtocol ≠ .activitypods

def Event.IsMarked : Event → Prop
  | .commit _ ops => ∀ op ∈ ops, op.1.isReturned = true →
      op.1.command.any Envelope.isMirrored = true
  | .ingress write _ _ => write.isReturned = false
  | .source activity _ _ => activity.isReturned = true →
      activity.command.any Envelope.isMirrored = true ∧
        ∃ outboxIntentId, activity.carriage = .wrapped outboxIntentId true

theorem stringOrNull_str (text : String) : stringOrNull (some (.str text)) = .str text := rfl

theorem stringOrNull_textOrNull (value : Option String) :
    stringOrNull (some (textOrNull value)) = textOrNull value := by
  cases value <;> rfl

theorem asBridgeMetadata_command {command : Envelope} (source : command.sourceProtocol ≠ .activitypods)
    (origin : command.provenance.originProtocol ≠ .activitypods) :
    asBridgeMetadata (some (.obj (commandMetadata command))) =
      some (.obj (commandMetadata command)) := by
  have isSource : isBridged (some (.str (Protocol.text command.sourceProtocol))) = true := by
    cases h : command.sourceProtocol <;> first | rfl | exact absurd h source
  have isOrigin :
      isBridged (some (.str (Protocol.text command.provenance.originProtocol))) = true := by
    cases h : command.provenance.originProtocol <;> first | rfl | exact absurd h origin
  have mode : isMode (some (.str (ProjectionMode.text command.provenance.projectionMode))) = true := by
    cases command.provenance.projectionMode <;> rfl
  simp [asBridgeMetadata, BskyTranslators.plainObject, commandMetadata, provenanceJson,
    List.lookup_cons, isSource, isOrigin, mode, isString, stringOrNull_textOrNull,
    stringOrNull_str]

theorem bridgedProtocol_text {protocol read : Protocol}
    (h : bridgedProtocol (some (.str (Protocol.text protocol))) = some read) : read = protocol := by
  cases protocol
  case activitypub =>
    have : bridgedProtocol (some (.str "activitypub")) = some .activitypub := by decide
    exact Option.some.inj (h.symm.trans this)
  case atproto =>
    have : bridgedProtocol (some (.str "atproto")) = some .atproto := by decide
    exact Option.some.inj (h.symm.trans this)
  case activitypods =>
    have : bridgedProtocol (some (.str "activitypods")) = none := by decide
    cases h.symm.trans this

theorem optional_projectionMode (mode : ProjectionMode) :
    Lib.Schema.optional projectionMode (some (.str (ProjectionMode.text mode))) =
      some (some mode) := by
  cases mode <;> decide

theorem bridgeSchema_provenance {p : Provenance} {bridge : Option AtEnvelope.Bridge}
    {fallbackEventId : String} {account : Option String}
    (h : bridgeSchema (some (provenanceJson p)) = some bridge) :
    (toProvenance bridge fallbackEventId account).originProtocol = p.originProtocol ∧
      (toProvenance bridge fallbackEventId account).projectionMode = p.projectionMode := by
  rw [bridgeSchema, optional_some] at h
  obtain ⟨value, read, rfl⟩ := Option.map_eq_some_iff.mp h
  simp only [bridgeObject, provenanceJson, object_obj, Option.bind_eq_bind,
    Option.bind_eq_some_iff, Option.pure_def, Option.some.injEq] at read
  obtain ⟨origin, isOrigin, _, -, _, -, _, -, mode, isMode, rfl⟩ := read
  have sameOrigin : origin = p.originProtocol := by
    refine bridgedProtocol_text ?_
    simpa [List.lookup_cons] using isOrigin
  have sameMode : mode = some p.projectionMode := by
    have : some (some p.projectionMode) = some mode := by
      rw [← isMode, ← optional_projectionMode]
      simp [List.lookup_cons]
    exact (Option.some.inj this).symm
  simp [toProvenance, sameOrigin, sameMode]

section
variable (printed : Option Json → String)

theorem commitInput_persisted (op : RepoOp) (subject : AliasSubject) (did cid : String) :
    ∃ entries, commitInput printed did (persistedOp op subject cid) = .obj entries ∧
      entries.lookup "eventType" = none ∧
      entries.lookup "bridge" = provenanceOf (op.bridge.filter DelayedQueue.jsTruthy) := by
  refine ⟨_, rfl, ?_, ?_⟩
  · simp
  · simp [persistedOp]

variable {printed}

theorem provenance_of_commit {digests : Digests} {ctx : Context} {r : RecordWrite} {did : String}
    {intent : Intent} {command : Envelope} (written : r.command = some command)
    (returned : command.provenance.originProtocol = .activitypub)
    (source : command.sourceProtocol ≠ .activitypods)
    (h : translate digests ctx (commitInput printed did r.entries) = some intent) :
    intent.provenance.originProtocol = .activitypub ∧
      intent.provenance.projectionMode = command.provenance.projectionMode := by
  obtain ⟨entries, same, direct, bridge⟩ :=
    commitInput_persisted printed { r.op with bridge := r.bridge } r.subject did r.cid
  have metadata : r.bridge = some (.obj (commandMetadata command)) := by
    rw [RecordWrite.bridge, written]
    exact asBridgeMetadata_command source (by simp [returned])
  have provenance : entries.lookup "bridge" = some (provenanceJson command.provenance) := by
    rw [bridge, metadata]
    simp [Option.filter, DelayedQueue.jsTruthy, provenanceOf, commandMetadata, List.lookup_cons]
  rw [RecordWrite.entries, same] at h
  obtain ⟨read, fallbackEventId, account, checked, is⟩ := translate_bridged direct h
  rw [provenance] at checked
  rw [is, ← returned]
  exact bridgeSchema_provenance checked

theorem process_returned (worker : AtToApProjectionWorker.Worker) {r : RecordWrite} (did : String)
    (answer : Nat → Except Retry.Thrown Unit) (w : AtToApProjectionWorker.World)
    (returned : r.isReturned = true) (marked : r.command.any Envelope.isMirrored = true) :
    ∃ intent, AtToApProjectionWorker.process worker answer (commitInput printed did r.entries) w =
      (w, .ok intent) := by
  obtain ⟨command, written, origin⟩ := (Option.any_eq_true ..).mp returned
  rw [written, Option.any_some, Envelope.isMirrored] at marked
  simp only [decide_eq_true_eq, Bool.and_eq_true] at origin marked
  unfold AtToApProjectionWorker.process
  split
  case h_1 => exact ⟨none, rfl⟩
  case h_2 intent translated =>
    obtain ⟨protocol, mode⟩ := provenance_of_commit written origin marked.2 translated
    have loopback : AtToApProjectionWorker.isLoopback intent = true := by
      simp [AtToApProjectionWorker.isLoopback, protocol, mode, marked.1]
    exact ⟨some intent, by simp [AtToApProjectionWorker.processIntent, loopback]⟩

theorem processOps_others {worker : AtToApProjectionWorker.Worker} (did : String)
    (ops : List (RecordWrite × (Nat → Except Retry.Thrown Unit))) (w : AtToApProjectionWorker.World)
    (marked : ∀ op ∈ ops, op.1.isReturned = true →
      op.1.command.any Envelope.isMirrored = true) :
    processOps worker printed did (answersOf ops) (ops.map fun op => .obj op.1.entries) w =
      processOps worker printed did (answersOf (ops.filter fun op => !op.1.isReturned))
        ((ops.filter fun op => !op.1.isReturned).map fun op => .obj op.1.entries) w := by
  induction ops generalizing w with
  | nil => rfl
  | cons op rest ih =>
    have tail := fun w => ih w fun op listed => marked op (List.mem_cons_of_mem _ listed)
    have answers (op : RecordWrite × (Nat → Except Retry.Thrown Unit)) (rest) :
        (fun place => answersOf (op :: rest) (place + 1)) = answersOf rest := by
      funext place
      simp [answersOf]
    by_cases returned : op.1.isReturned = true
    · obtain ⟨intent, passed⟩ : ∃ intent, AtToApProjectionWorker.process worker
          (answersOf (op :: rest) 0) (commitInput printed did op.1.entries) w = (w, .ok intent) :=
        process_returned worker did _ w returned (marked op List.mem_cons_self returned)
      rw [List.filter_cons_of_neg (by simp [returned]), List.map_cons]
      simp only [processOps, opEntries, passed, answers]
      exact tail w
    · rw [List.filter_cons_of_pos (by simp [returned])]
      simp only [List.map_cons, processOps, opEntries, answers]
      cases result : AtToApProjectionWorker.process worker (answersOf (op :: rest) 0)
          (commitInput printed did op.1.entries) w with
      | mk after outcome =>
        have same : answersOf (op :: rest.filter fun op => !op.1.isReturned) 0 =
            answersOf (op :: rest) 0 := rfl
        rw [same, result]
        cases outcome with
        | error e => rfl
        | ok intent => exact tail after

end

section
variable {I C : Type} {b : Bridge I C} {s : State I C}

theorem handleSource_returned {a : LocalActivity} {clock : Readings}
    {answer : Nat → Except Retry.Thrown Unit} {outboxIntentId : Option Json}
    (returned : a.isReturned = true) (marked : a.command.any Envelope.isMirrored = true)
    (wrapped : a.carriage = .wrapped outboxIntentId true) (memory : Memory) (w : World I C) :
    (handleSource b.toAt b.rt answer clock a.event memory w).2 = w := by
  obtain ⟨command, published, origin⟩ := (Option.any_eq_true ..).mp returned
  rw [published, Option.any_some, Envelope.isMirrored] at marked
  simp only [decide_eq_true_eq, Bool.and_eq_true] at origin marked
  have isSource : (isText "activitypub" (some (.str (Protocol.text command.sourceProtocol))) ||
      isText "atproto" (some (.str (Protocol.text command.sourceProtocol)))) = true := by
    cases h : command.sourceProtocol <;> first | decide | exact absurd h marked.2
  have unwrapped : unwrapApSourceEvent a.event = some
      ⟨a.activity, some (commandMetadata command),
        extractOutboxIntentId (present [("activity", some (.obj a.activity)),
          ("bridge", some (.obj (commandMetadata command))),
          ("outboxIntentId", outboxIntentId)])⟩ := by
    simp only [LocalActivity.event, wrapped, published, if_true, Option.map_some,
      unwrapApSourceEvent]
    simp [asActivityPubBridgeMetadata, commandMetadata, provenanceJson, List.lookup_cons,
      isString, Bool.or_eq_true .. ▸ isSource]
  have mirrored : isMirroredFromAt (some (commandMetadata command)) = true := by
    simp [isMirroredFromAt, commandMetadata, provenanceJson, List.lookup_cons, isText, origin,
      marked.1, Protocol.text, ProjectionMode.text]
  simp only [handleSource, handleApSourceEvent, unwrapped, mirrored]
  split <;> split <;> simp_all [skipped]

theorem step_others {e : Event} (marked : e.IsMarked) :
    (step b s e).toAp = (step b s e.others).toAp ∧ (step b s e).toAt = (step b s e.others).toAt := by
  cases e with
  | commit did ops =>
    refine ⟨?_, rfl⟩
    simp only [step, Event.others, handleAtCommitEvent, commitEvent,
      UndoTopics.asAtCommitEvent_event, List.map_map]
    exact congrArg Prod.fst (processOps_others did ops s.toAp marked)
  | ingress write cid answer =>
    have native : write.isReturned = false := marked
    simp [Event.others, native]
  | source activity clock answer =>
    by_cases returned : activity.isReturned = true
    · obtain ⟨mirrored, outboxIntentId, wrapped⟩ := marked returned
      simp only [Event.others, returned, if_true, step]
      exact ⟨rfl, handleSource_returned returned mirrored wrapped s.memory s.toAt⟩
    · simp [Event.others, returned]

theorem step_toAp {t : State I C} (same : s.toAp = t.toAp) (e : Event) :
    (step b s e).toAp = (step b t e).toAp := by
  cases e <;> simp [step, same]

theorem no_echo (events : List Event) (marked : ∀ e ∈ events, e.IsMarked) :
    (run b s events).toAp = (run b s (events.map Event.others)).toAp ∧
      ∀ done e, done ++ [e] <+: events →
        (run b s (done ++ [e])).toAp = (step b (run b s done) e.others).toAp ∧
          (run b s (done ++ [e])).toAt = (step b (run b s done) e.others).toAt := by
  constructor
  · induction events using List.reverseRecOn with
    | nil => rfl
    | append_singleton done e ih =>
      have before := ih fun e listed => marked e (List.mem_append_left _ listed)
      have last : e.IsMarked := marked e (by simp)
      simp only [run, List.foldl_append, List.map_append, List.foldl_cons, List.foldl_nil,
        List.map_cons, List.map_nil]
      rw [(step_others last).1]
      exact step_toAp before _
  · intro done e within
    simp only [run, List.foldl_append, List.foldl_cons, List.foldl_nil]
    exact step_others (marked e (within.subset (by simp)))

end

def announcements : Worker Envelope String where
  translate activity := do
    let entries ← BskyTranslators.plainObject (some activity)
    let id ← textOf (entries.lookup "id")
    return ⟨id, .activitypub, ⟨.activitypub, id, some "acct-1", none, .native⟩⟩
  envelope := id
  policy _ := ⟨true, []⟩
  mergePolicyWarnings intent _ := intent
  project intent := .success [intent.canonicalIntentId]
  maxAttempts := 5

noncomputable def announcementBridge : Bridge Envelope String where
  rt := ⟨true, 60⟩
  toAp := UndoTopics.sharesWorker
  toAt := announcements
  printed _ := "undefined"

def quiet : State Envelope String := ⟨fun _ => none, AtToApProjectionWorker.World.initial, .initial⟩

def commandFrom (protocol : Protocol) (mode : ProjectionMode) : Envelope where
  canonicalIntentId := "intent-1"
  sourceProtocol := protocol
  provenance := ⟨protocol, "https://social.example/activities/1", some "acct-1", none, mode⟩

def repostWrite (mode : ProjectionMode) : RecordWrite where
  op := UndoTopics.repostOf.createOp
  subject := { subjectUri := some UndoTopics.reposted, subjectCid := some "bafybob" }
  cid := "bafyada"
  command := some (commandFrom .activitypub mode)

def announced (mode : ProjectionMode) : LocalActivity where
  activity := [("id", .str "https://bridge.example/ada/announce/1"), ("type", .str "Announce")]
  carriage := .wrapped (some (.str "outbox-1")) true
  command := some (commandFrom .atproto mode)

theorem marked_events_quiet :
    (run announcementBridge quiet
        [.commit "did:plc:ada" [(repostWrite .mirrored, ReplaySuppression.answered)],
          .commit "did:plc:ada" [(repostWrite .mirrored, ReplaySuppression.answered)],
          .source (announced .mirrored) ⟨0, 0⟩ ReplaySuppression.answered]).toAp = quiet.toAp := by
  refine (no_echo _ ?_).1.trans ?_
  · simp only [List.forall_mem_cons, Event.IsMarked]
    refine ⟨by decide, by decide, ?_, by simp⟩
    exact fun _ => ⟨by decide, _, rfl⟩
  · rfl

/-- Without the mode, or by the verified firehose, each direction sends back what it got. -/
theorem native_events_echo :
    (run announcementBridge quiet [.commit "did:plc:ada"
        [(repostWrite .native, ReplaySuppression.answered)]]).toAp.published ≠ [] ∧
      (run announcementBridge quiet [.ingress (repostWrite .mirrored) (some "bafyada")
        ReplaySuppression.answered]).toAp.published ≠ [] ∧
      (run announcementBridge quiet [.source (announced .native) ⟨0, 0⟩
        ReplaySuppression.answered]).toAt.applied ≠ [] := by
  refine ⟨?_, ?_, by decide⟩
  · obtain ⟨addition, commands, published, -⟩ := UndoTopics.repost_published
      (.atCommit (repostWrite .native).subject "bafyada" (repostWrite .native).bridge)
      (by decide +kernel)
    intro silent
    cases published.symm.trans silent
  · obtain ⟨addition, commands, published, -⟩ := UndoTopics.repost_published
      (.verifiedIngress (some "bafyada")) (by decide +kernel)
    intro silent
    cases published.symm.trans silent

end MastopodFederation.Guarantees.NoEcho
