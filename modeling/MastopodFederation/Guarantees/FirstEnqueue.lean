import MastopodFederation.Guarantees.DelayedDelivery
import MastopodFederation.Guarantees.OneDisposition

/-!
# The first-enqueue time of a copy is kept

A copy of a job is stamped when it is first enqueued or consumed, and the stamp passes through
every deferral, retry, parking, promotion and consumption: `origin` of the copies is what every
residence check reads (`timed`), and no POST starts later than the residence limit after it.
-/
namespace MastopodFederation.Guarantees.FirstEnqueue
open Lib.LuaTable Lib.Calls Lib.WorkerPool Lib.GuardedRun Lib.Logged Source.DelayedQueue
open Source.ReplayHorizon Source.OutboundWorker Source.OutboundQueue OutboundCalls DelayedDelivery

def metaStamp : Option Json → Option Rat
  | some (.obj entries) =>
    match entries.lookup "apdmFirstQueuedAtMs" with
    | some (.num value) => some value
    | _ => none
  | _ => none

def Stamped (origin : Int) (metaJson : Option Json) : Prop :=
  metaStamp metaJson = some (origin : Rat)

def Timely (nowMs : Int) : Prop := 0 < nowMs ∧ nowMs < 10 ^ 14

def Unstamped (nowMs : Int) (job : OutboundJob) : Prop :=
  ∀ value, apdmFirstQueuedAtMs job = some value → 0 < value → value = nowMs

/-- What JSON.stringify, JSON.parse, cjson.decode and cjson.encode do where they succeed:
they print and read values, and cjson prints integers of at most 14 digits exactly. -/
structure LawfulTexts (rt : Runtime) : Prop where
  printed : ∀ value, rt.stringify value ≠ ""
  parse : ∀ value again, rt.parse (rt.stringify value) = .ok again → again = value
  decode : ∀ value decoded, rt.cjsonDecode (rt.stringify value) = some decoded →
    decoded = value.toLua
  encoded : ∀ value, rt.cjsonEncode value ≠ ""
  reencode : ∀ value again, rt.parse (rt.cjsonEncode value.toLua) = .ok again →
    Same again (recode rt.reprint value)
  reprint : ∀ n : Int, Timely n → rt.reprint n = n

section Stamps
variable {rt : Runtime} {codec : PayloadCodec} {job : OutboundJob} {origin nowMs : Int}

theorem apdmFirstQueuedAtMs_eq (job : OutboundJob) :
    apdmFirstQueuedAtMs job = metaStamp job.metaJson := rfl

theorem lookup_setEntry (entries : List (String × Json)) (key : String) (value : Json) :
    (setEntry entries key value).lookup key = some value := by
  unfold setEntry
  split
  next present =>
    induction entries with
    | nil => cases present
    | cons entry rest ih =>
      obtain ⟨name, old⟩ := entry
      by_cases same : name = key
      · simp [same]
      · have other : (key == name) = false := beq_eq_false_iff_ne.mpr (Ne.symm same)
        simp only [List.lookup_cons, other] at present
        simp only [List.map_cons, if_neg same, List.lookup_cons, other]
        exact ih present
  next absent =>
    induction entries with
    | nil => simp
    | cons entry rest ih =>
      obtain ⟨name, old⟩ := entry
      by_cases same : key = name
      · simp [same] at absent
      · have other : (key == name) = false := beq_eq_false_iff_ne.mpr same
        simp only [List.lookup_cons, other] at absent
        simp only [List.cons_append, List.lookup_cons, other]
        exact ih absent

theorem stamped_stampedMeta (metaJson : Option Json) (nowMs : Int) :
    Stamped nowMs (some (stampedMeta metaJson nowMs)) := by
  unfold Stamped stampedMeta metaStamp
  dsimp only
  rw [lookup_setEntry]

theorem ensureFirstQueuedAt_of_stamped (stamped : Stamped origin job.metaJson)
    (positive : 0 < origin) (nowMs : Int) : ensureFirstQueuedAt job nowMs = job := by
  unfold ensureFirstQueuedAt
  rw [apdmFirstQueuedAtMs_eq, stamped]
  exact if_pos (Int.cast_pos.mpr positive)

theorem stamped_ensureFirstQueuedAt (unstamped : Unstamped nowMs job) :
    Stamped nowMs (ensureFirstQueuedAt job nowMs).metaJson := by
  unfold ensureFirstQueuedAt
  split
  next existing carried =>
    split
    next positive =>
      rw [unstamped existing carried positive] at carried
      exact carried
    · exact stamped_stampedMeta _ _
  · exact stamped_stampedMeta _ _

variable {metaJson : Option Json}

theorem obj_of_stamped (stamped : Stamped origin metaJson) :
    ∃ entries, metaJson = some (.obj entries) ∧
      entries.lookup "apdmFirstQueuedAtMs" = some (.num origin) := by
  unfold Stamped metaStamp at stamped
  split at stamped
  next entries =>
    split at stamped
    next value found =>
      cases stamped
      exact ⟨entries, rfl, found⟩
    · cases stamped
  · cases stamped

def StampedFields (rt : Runtime) (origin : Int) (fields : Fields) : Prop :=
  ∀ metaJson, optionalJson rt fields "meta" = .ok metaJson → Stamped origin metaJson

variable {fields : Fields}

theorem stampedFields_of_text {text : String}
    (field : fields.lookup "meta" = some text) (printed : text ≠ "")
    (reads : ∀ again, rt.parse text = .ok again → Stamped origin (some again)) :
    StampedFields rt origin fields := by
  intro metaJson read
  rw [optionalJson, optionalText_of_lookup field, if_neg printed] at read
  dsimp only at read
  cases parsed : rt.parse text with
  | error e => rw [parsed] at read; cases read
  | ok again =>
    rw [parsed] at read
    cases read
    exact reads again parsed

theorem stampedFields_serialize (lawful : LawfulTexts rt) (stamped : Stamped origin job.metaJson)
    (serialized : serializeOutboundJob rt codec job = .ok fields) :
    StampedFields rt origin fields := by
  obtain ⟨entries, carried, found⟩ := obj_of_stamped stamped
  have text : stringifyOptional rt job.metaJson = rt.stringify (.obj entries) := by
    rw [carried]
    rfl
  unfold serializeOutboundJob at serialized
  rw [except_bind_ok] at serialized
  obtain ⟨activity, -, built⟩ := serialized
  cases built
  apply stampedFields_of_text
  · rfl
  · rw [text]
    exact lawful.printed _
  · intro again parsed
    rw [text] at parsed
    rw [lawful.parse _ again parsed, ← carried]
    exact stamped

theorem meta_of_serialize (lawful : LawfulTexts rt)
    (serialized : serializeOutboundJob rt codec job = .ok fields)
    (read : optionalJson rt fields "meta" = .ok metaJson) :
    metaJson = job.metaJson ∨ metaJson = none := by
  unfold serializeOutboundJob at serialized
  rw [except_bind_ok] at serialized
  obtain ⟨activity, -, built⟩ := serialized
  cases built
  rw [optionalJson, optionalText_of_lookup rfl] at read
  cases carried : job.metaJson with
  | none =>
    rw [carried] at read
    cases read
    exact .inr rfl
  | some value =>
    rw [carried, stringifyOptional] at read
    by_cases truthy : jsTruthy value = true
    · rw [if_pos truthy, if_neg (lawful.printed value)] at read
      dsimp only at read
      cases parsed : rt.parse (rt.stringify value) with
      | error e => rw [parsed] at read; cases read
      | ok again =>
        rw [parsed] at read
        cases read
        exact .inl (congrArg some (lawful.parse _ again parsed))
    · rw [if_neg truthy] at read
      cases read
      exact .inr rfl

theorem stamped_of_same (lawful : LawfulTexts rt) (timely : Timely origin) {again : Json}
    {entries : List (String × Json)}
    (found : entries.lookup "apdmFirstQueuedAtMs" = some (.num origin))
    (same : Same again (recode rt.reprint (.obj entries))) : Stamped origin (some again) := by
  rw [recode_obj] at same
  have recoded : (entries.map fun entry => (entry.1, recode rt.reprint entry.2)).lookup
      "apdmFirstQueuedAtMs" = some (.num origin) := by
    rw [lookup_map_snd, found]
    change some (Json.num (rt.reprint origin)) = _
    rw [lawful.reprint origin timely]
  cases same with
  | obj keys values =>
    rename_i xs
    obtain ⟨value, carried⟩ : ∃ value, xs.lookup "apdmFirstQueuedAtMs" = some value := by
      apply Option.isSome_iff_exists.mp
      rw [keys, recoded]
      rfl
    have number := values _ _ _ carried recoded
    cases number with
    | num _ =>
      unfold Stamped metaStamp
      dsimp only
      rw [carried]

theorem stampedFields_promote (lawful : LawfulTexts rt) (timely : Timely origin)
    (stamped : Stamped origin job.metaJson) {id : String}
    (promoted : promoteOutbound rt (some (rt.stringify job.toJson)) id = .ok (some fields)) :
    StampedFields rt origin fields := by
  obtain ⟨entries, carried, found⟩ := obj_of_stamped stamped
  unfold promoteOutbound at promoted
  dsimp only at promoted
  split at promoted
  · cases promoted
  next decoded read =>
    cases lawful.decode _ decoded read
    have text : encodeOptional rt (luaField job.toJson.toLua "meta") =
        rt.cjsonEncode (Json.obj entries).toLua := by
      rw [(luaField_job job).2.2.2.2.2.2.2.2.2.2.2, carried]
      rfl
    simp only [except_bind_ok] at promoted
    obtain ⟨_, _, _, _, _, _, _, _, _, _, _, _, _, _, built⟩ := promoted
    cases built
    apply stampedFields_of_text
    · rfl
    · rw [text]
      exact lawful.encoded _
    · intro again parsed
      rw [text] at parsed
      exact stamped_of_same lawful timely found (lawful.reencode _ again parsed)

end Stamps

/-- What a worker for a copy of this origin may do: POST within the limit, and store and
append jobs that carry the stamp. -/
def permits (rt : Runtime) (origin : Int) : Call → Prop
  | .request _ _ _ startedAt =>
    0 < origin ∧ startedAt ≤ origin + outboundMessageMaxResidenceMs
  | .storeDelayedOutbound job | .parkDelayedOutbound _ job => Stamped origin job.metaJson
  | .addReady batch => ∀ fields ∈ batch, StampedFields rt origin fields
  | _ => True

def residence (rt : Runtime) : Monitor Call Reply Int := ⟨permits rt, fun origin _ _ => origin⟩

section Handler
variable (env : Environment) (cfg : Config) {job : OutboundJob} {origin : Int}

theorem permits_of_quiet (c : Call) (quiet : Quiet c) : permits env.rt origin c := by
  cases c <;> trivial

variable {α : Type}

theorem permitted_quiet {ε : Type} {x : Prog Call Reply ε α} (only : Only Quiet x) :
    Only (permits env.rt origin) x := only.imp (permits_of_quiet env)

def free : Call → Bool
  | .request .. | .storeDelayedOutbound _ | .parkDelayedOutbound .. | .addReady _ => false
  | _ => true

variable {c : Call}

theorem permits_of_free (unrestricted : free c = true) : permits env.rt origin c := by
  cases c <;> trivial

variable {next : Reply c → Except Failure α}

theorem permitted_ask (allowed : permits env.rt origin c) :
    Only (permits env.rt origin) (.call c fun r => .done (next r) : Program α) :=
  only_call allowed fun _ => only_done _

theorem permitted_free (unrestricted : free c = true) :
    Only (permits env.rt origin) (.call c fun r => .done (next r) : Program α) :=
  permitted_ask env (permits_of_free env unrestricted)

theorem within_of_allowed (stamped : Stamped origin job.metaJson) {startedAt : Int}
    (allowed : assertExternalPostAllowed env job startedAt = .ok ()) :
    0 < origin ∧ startedAt ≤ origin + outboundMessageMaxResidenceMs := by
  unfold assertExternalPostAllowed queueResidenceMs at allowed
  rw [apdmFirstQueuedAtMs_eq, stamped] at allowed
  dsimp only at allowed
  split at allowed
  · cases allowed
  next admitted =>
    unfold residenceError at admitted
    split at admitted
    · cases admitted
    next residenceMs known =>
      split at admitted
      · cases admitted
      next within =>
        obtain ⟨positive, le⟩ := le_of_outboxIntentAgeMs known (not_lt.mp within)
        exact ⟨Int.cast_pos.mp positive, by exact_mod_cast le⟩

theorem permitted_deliver (stamped : Stamped origin job.metaJson) :
    Only (permits env.rt origin) (deliver env cfg job) := by
  apply calls_deliver env cfg (permits_of_quiet env)
  exact fun _ _ _ _ allowed => within_of_allowed env stamped allowed

theorem permitted_enqueueOutbound (lawful : LawfulTexts env.rt) (positive : 0 < origin)
    (stamped : Stamped origin job.metaJson) :
    Only (permits env.rt origin) (enqueueOutbound env job) := by
  rw [enqueueOutbound_eq]
  apply only_bind (permitted_quiet env quiet_clock)
  intro nowMs
  rw [ensureFirstQueuedAt_of_stamped stamped positive]
  unfold enqueueOne
  split
  · exact permitted_ask env stamped
  · split
    next fields serialized =>
      apply permitted_ask env
      intro entry mem
      rw [List.mem_singleton.mp mem]
      exact stampedFields_serialize lawful stamped serialized
    · exact only_fail _

theorem permitted_deadLetter (messageId reason : String) :
    Only (permits env.rt origin) (deadLetter messageId job reason) := by
  unfold deadLetter
  apply only_bind
  · exact permitted_free env rfl
  · exact fun _ => permitted_free env rfl

theorem permitted_defer (lawful : LawfulTexts env.rt) (positive : 0 < origin)
    (stamped : Stamped origin job.metaJson) (messageId reason : String) (baseDelayMs : Int) :
    Only (permits env.rt origin) (defer env cfg messageId job reason baseDelayMs) := by
  unfold defer deferOrParkJob
  dsimp only
  apply only_bind
  · split
    · exact permitted_free env rfl
    · apply only_bind (permitted_quiet env (quiet_notReadyJitter cfg))
      intro jitterMs
      apply only_bind (permitted_quiet env quiet_clock)
      exact fun _ => permitted_enqueueOutbound env lawful positive stamped
  · exact fun _ => permitted_free env rfl

theorem permitted_claimHeld {held : Bool} {body : Program α}
    (only : Only (permits env.rt origin) body) :
    Only (permits env.rt origin) (claimHeld held body) := only_rescue only fun _ => only_done _

theorem permitted_callAdapter {hook : Program Unit} (only : Only (permits env.rt origin) hook) :
    Only (permits env.rt origin) (callAdapter hook) := only_rescue only fun _ => only_done _

theorem permitted_release (jobId claimToken : String) :
    Only (permits env.rt origin) (release jobId claimToken) := permitted_free env rfl

theorem permitted_settleSuccess (messageId claimToken : String) (result : DeliveryResult) :
    Only (permits env.rt origin) (settleSuccess cfg messageId claimToken job result) := by
  unfold settleSuccess
  apply only_bind (only_attempt (permitted_free env rfl))
  intro persisted
  split
  · exact only_pure _
  · apply only_bind (permitted_claimHeld env (permitted_free env rfl))
    intro _
    apply only_bind
    · exact permitted_claimHeld env (permitted_callAdapter env (permitted_free env rfl))
    · exact fun _ => only_pure _

theorem permitted_settleFailure (lawful : LawfulTexts env.rt) (positive : 0 < origin)
    (stamped : Stamped origin job.metaJson) (messageId claimToken : String)
    (result : DeliveryResult) :
    Only (permits env.rt origin) (settleFailure env messageId claimToken job result) := by
  unfold settleFailure
  apply only_bind (permitted_claimHeld env (permitted_release env _ _))
  intro _
  apply permitted_claimHeld
  split
  · apply only_bind (permitted_deadLetter env _ _)
    exact fun _ => permitted_callAdapter env (permitted_free env rfl)
  · dsimp only
    split
    · apply only_bind (permitted_deadLetter env _ _)
      exact fun _ => permitted_callAdapter env (permitted_free env rfl)
    · apply only_bind (permitted_quiet env quiet_clock)
      intro nowMs
      apply only_bind
      · exact permitted_enqueueOutbound env lawful positive stamped
      · exact fun _ => permitted_free env rfl

theorem permitted_withDomainSlot (lawful : LawfulTexts env.rt) (positive : 0 < origin)
    (stamped : Stamped origin job.metaJson) (messageId claimToken : String) :
    Only (permits env.rt origin) (withDomainSlot env cfg messageId claimToken job) := by
  unfold withDomainSlot deliverInSlot
  apply only_bind
  · apply only_attempt
    apply only_bind (permitted_claimHeld env (permitted_quiet env quiet_clock))
    intro nowMs
    split
    · apply only_bind (permitted_claimHeld env (permitted_release env _ _))
      intro _
      apply only_bind (permitted_claimHeld env (permitted_deadLetter env _ _))
      exact fun _ => only_pure _
    · apply only_bind (permitted_claimHeld env (permitted_deliver env cfg stamped))
      intro result
      split
      · exact permitted_settleSuccess env cfg _ _ _
      · apply only_bind (permitted_settleFailure env lawful positive stamped _ _ _)
        exact fun _ => only_pure _
  · intro outcome
    apply only_bind (permitted_claimHeld env (permitted_free env rfl))
    intro _
    cases outcome with
    | ok _ => exact only_pure _
    | error _ => exact only_fail _

theorem permitted_processClaimed (lawful : LawfulTexts env.rt) (positive : 0 < origin)
    (stamped : Stamped origin job.metaJson) (messageId claimToken : String) :
    Only (permits env.rt origin) (processClaimed env cfg messageId claimToken job) := by
  unfold processClaimed
  apply only_bind (permitted_claimHeld env (permitted_free env rfl))
  intro blocked
  split
  · apply only_bind (permitted_claimHeld env (permitted_release env _ _))
    exact fun _ => permitted_claimHeld env (permitted_deadLetter env _ _)
  · apply only_bind (permitted_claimHeld env (permitted_free env rfl))
    intro withinLimit
    split
    · apply only_bind (permitted_claimHeld env (permitted_release env _ _))
      exact fun _ => permitted_claimHeld env (permitted_defer env cfg lawful positive stamped _ _ _)
    · apply only_bind (permitted_claimHeld env (permitted_free env rfl))
      intro slot
      split
      · apply only_bind (permitted_claimHeld env (permitted_release env _ _))
        exact fun _ =>
          permitted_claimHeld env (permitted_defer env cfg lawful positive stamped _ _ _)
      · exact permitted_withDomainSlot env cfg lawful positive stamped _ _

theorem permitted_processJob (lawful : LawfulTexts env.rt) (positive : 0 < origin)
    (stamped : Stamped origin job.metaJson) (messageId : String) :
    Only (permits env.rt origin) (processJob env cfg messageId job) := by
  unfold processJob
  apply only_bind (permitted_quiet env quiet_clock)
  intro startedAt
  apply only_bind (permitted_free env rfl)
  intro claimToken
  apply only_rescue
  · unfold attemptJob
    split
    · exact permitted_claimHeld env (permitted_deadLetter env _ _)
    · apply only_bind (permitted_claimHeld env (permitted_quiet env (quiet_capabilityGate cfg)))
      intro gate
      split
      · exact permitted_claimHeld env (permitted_deadLetter env _ _)
      · apply only_bind
          (permitted_claimHeld env (permitted_quiet env (quiet_waitUntilReady job)))
        intro pending
        split
        · exact only_pure _
        · unfold claimAndProcess
          apply only_bind (permitted_claimHeld env (permitted_free env rfl))
          intro claimState
          split
          · exact permitted_claimHeld env (permitted_free env rfl)
          · exact permitted_claimHeld env
              (permitted_defer env cfg lawful positive stamped _ _ _)
          · exact permitted_processClaimed env cfg lawful positive stamped _ _
  · intro thrown
    unfold recover
    dsimp only
    split
    · apply only_bind (permitted_callAdapter env (permitted_release env _ _))
      exact fun _ => permitted_deadLetter env _ _
    · exact permitted_deadLetter env _ _

theorem permitted_persistDeadLetter :
    ∀ (fuel : Nat) (delay : Int), Only (permits env.rt origin) (persistDeadLetter fuel job delay)
  | 0, _ => only_fail _
  | fuel + 1, delay => by
    unfold persistDeadLetter
    dsimp only
    apply only_bind (only_attempt (permitted_free env rfl))
    intro persisted
    split
    · exact only_pure _
    · apply only_bind (permitted_free env rfl)
      exact fun _ => permitted_persistDeadLetter fuel _

theorem permitted_parkUntilSettled (stamped : Stamped origin job.metaJson) (messageId : String) :
    ∀ (fuel : Nat) (delay : Int),
      Only (permits env.rt origin) (parkUntilSettled fuel messageId job delay)
  | 0, _ => only_fail _
  | fuel + 1, delay => by
    unfold parkUntilSettled
    have parks : Only (permits env.rt origin)
        (.call (.parkDelayedOutbound messageId job) .done : Program Unit) :=
      only_call stamped fun _ => only_done _
    apply only_bind (only_attempt parks)
    intro parked
    split
    · exact only_pure _
    · apply only_bind (permitted_free env rfl)
      intro _
      apply only_bind (permitted_quiet env quiet_clock)
      intro nowMs
      split
      · apply only_bind (permitted_persistDeadLetter env fuel _)
        intro _
        apply only_bind (permitted_callAdapter env (permitted_free env rfl))
        exact fun _ => only_pure _
      · apply only_bind (permitted_quiet env quiet_clock)
        intro laterMs
        split
        · exact permitted_parkUntilSettled stamped messageId fuel _
        · exact only_pure _

theorem permitted_consumeEntry (messageId : String)
    (stamped : Stamped origin (consumed messageId job).metaJson) (fuel : Nat) :
    Only (permits env.rt origin) (consumeEntry env fuel messageId job) := by
  unfold consumeEntry
  split
  · exact only_pure _
  next streamTimestamp read =>
    have yields : consumed messageId job = ensureFirstQueuedAt job streamTimestamp := by
      simp [consumed, read]
    rw [yields] at stamped
    dsimp only
    apply only_bind (permitted_quiet env quiet_clock)
    intro nowMs
    split
    · apply only_bind (permitted_callAdapter env (permitted_deadLetter env _ _))
      exact fun _ => only_pure _
    · apply only_bind (permitted_quiet env quiet_clock)
      intro laterMs
      split
      · apply only_bind (permitted_parkUntilSettled env stamped messageId fuel _)
        intro parked
        split
        · exact only_pure _
        · exact only_pure _
      · exact only_pure _

def Consumes (env : Environment) (origin : Int) (messageId : String) (fields : Fields) : Prop :=
  ∀ job, deserializeOutboundJob env.rt env.codec messageId fields = .ok job →
    Stamped origin (consumed messageId job).metaJson

theorem permitted_handleEntry (lawful : LawfulTexts env.rt) (positive : 0 < origin)
    {messageId : String} {fields : Fields} (consumes : Consumes env origin messageId fields)
    (fuel : Nat) : Only (permits env.rt origin) (handleEntry env cfg fuel messageId fields) := by
  unfold handleEntry
  split
  · exact only_pure _
  next job parsed =>
    have stamped := consumes job parsed
    apply (permitted_consumeEntry env messageId stamped fuel).bind_returns
      (returns_consumeEntry env fuel _ _)
    intro yielded named
    cases yielded with
    | none => exact only_pure _
    | some job' =>
      rw [named job' rfl]
      exact permitted_processJob env cfg lawful positive stamped messageId

theorem permitted_enqueueStamped (lawful : LawfulTexts env.rt) {nowMs : Int}
    {jobs : List OutboundJob} (unstamped : ∀ job ∈ jobs, Unstamped nowMs job) :
    Only (permits env.rt nowMs) (enqueueStamped env nowMs jobs) := by
  apply calls_enqueueStamped
  · intro batch made fields mem
    obtain ⟨job, listed, serialized⟩ := made fields mem
    exact stampedFields_serialize lawful (stamped_ensureFirstQueuedAt (unstamped job listed))
      serialized
  · exact fun job listed => stamped_ensureFirstQueuedAt (unstamped job listed)

end Handler

structure EntryTimed (env : Environment) (entry : ReadyEntry) : Prop where
  timely : Timely entry.origin
  consumes : Consumes env entry.origin entry.messageId entry.fields

structure PayloadTimed (env : Environment) (origin : Int) (text : String) : Prop where
  timely : Timely origin
  stamped : ∃ job : OutboundJob, text = env.rt.stringify job.toJson ∧ Stamped origin job.metaJson

/-- Every copy carries the stamp of its origin, and every POST started within the residence
limit after the origin of its copy. -/
structure NeverResets (env : Environment) (s : Store) : Prop where
  ready : ∀ entry ∈ s.ready, EntryTimed env entry
  delayed : ∀ id text, s.payloads id = some text → PayloadTimed env (s.delayedOrigin id) text
  posts : ∀ post ∈ s.posts, 0 < post.origin ∧
    post.startedAt ≤ post.origin + outboundMessageMaxResidenceMs

abbrev Duties := Nat → Option (Int × Int)

def Invariant (env : Environment) (s : Store) (duties : Duties) : Prop :=
  NeverResets env s ∧ ∀ i tag origin, duties i = some (tag, origin) → tag = origin ∧ Timely origin

section Steps
variable {env : Environment} {cfg : Config} {s after : Store} {duties : Duties} {origin : Int}

theorem consumes_of_stamped {fields : Fields} (stamped : StampedFields env.rt origin fields)
    (positive : 0 < origin) (messageId : String) : Consumes env origin messageId fields := by
  intro job parsed
  have carried := stamped _ (fields_of_deserialize env parsed).2
  unfold consumed
  split
  · exact carried
  · rw [ensureFirstQueuedAt_of_stamped carried positive]
    exact carried

theorem consumes_of_unstamped (lawful : LawfulTexts env.rt) {messageId : String} {nowMs : Int}
    {job : OutboundJob} {fields : Fields} (unstamped : Unstamped nowMs job)
    (serialized : serializeOutboundJob env.rt env.codec job = .ok fields)
    (read : redisStreamMessageTimestampMs messageId = some nowMs) :
    Consumes env nowMs messageId fields := by
  intro parsed reads
  have fresh : Unstamped nowMs parsed := by
    rcases meta_of_serialize lawful serialized (fields_of_deserialize env reads).2 with same | gone
    · intro value carried
      rw [apdmFirstQueuedAtMs_eq, same] at carried
      exact unstamped value carried
    · intro value carried
      rw [apdmFirstQueuedAtMs_eq, gone] at carried
      cases carried
  have yields : consumed messageId parsed = ensureFirstQueuedAt parsed nowMs := by
    simp [consumed, read]
  rw [yields]
  exact stamped_ensureFirstQueuedAt fresh

theorem resets_addEntries (timed : NeverResets env s) (timely : Timely origin)
    {entries : List (String × Fields)}
    (consumes : ∀ item ∈ entries, Consumes env origin item.1 item.2) :
    NeverResets env (s.addEntries origin entries) := by
  refine ⟨fun entry mem => ?_, timed.delayed, timed.posts⟩
  rcases List.mem_append.mp mem with old | new
  · exact timed.ready entry old
  · obtain ⟨item, listed, rfl⟩ := List.mem_map.mp new
    exact ⟨timely, consumes item listed⟩

theorem resets_acknowledge (timed : NeverResets env s) (messageId : String) :
    NeverResets env (s.acknowledge messageId) := by
  refine ⟨fun entry mem => ?_, timed.delayed, timed.posts⟩
  obtain ⟨before, present, rfl⟩ := List.mem_map.mp mem
  have kept := timed.ready before present
  split
  · exact ⟨kept.timely, kept.consumes⟩
  · exact kept

theorem resets_storeDelayed (timed : NeverResets env s) (timely : Timely origin)
    {job : OutboundJob} (stamped : Stamped origin job.metaJson) :
    NeverResets env (s.storeDelayed env.rt origin job) := by
  unfold Store.storeDelayed parkDelayedOutbound park
  split
  · exact timed
  · refine ⟨timed.ready, fun id text stored => ?_, timed.posts⟩
    dsimp only at stored ⊢
    split at stored
    next same =>
      cases stored
      rw [if_pos same]
      exact ⟨timely, job, rfl, stamped⟩
    next other =>
      rw [if_neg other]
      exact timed.delayed id text stored

theorem resets_removeDelayed (timed : NeverResets env s) (id : String) :
    NeverResets env (s.removeDelayed id) := by
  refine ⟨timed.ready, fun other text stored => ?_, timed.posts⟩
  unfold Store.removeDelayed at stored
  dsimp only at stored
  split at stored
  · cases stored
  · exact timed.delayed other text stored

theorem resets_applies (timed : NeverResets env s) (timely : Timely origin) {c : Call}
    {reply : Reply c} (permitted : permits env.rt origin c)
    (applies : Applies env origin c s reply after) : NeverResets env after := by
  cases applies with
  | claimCompleted _ | claim _ _ | release | releaseDomainSlot => exact timed
  | claimLegacy _ | complete | moveToDlq => exact ⟨timed.ready, timed.delayed, timed.posts⟩
  | addReady _ _ =>
    apply resets_addEntries timed timely
    intro item mem
    exact consumes_of_stamped (permitted _ (List.of_mem_zip mem).2) timely.1 _
  | storeDelayedOutbound => exact resets_storeDelayed timed timely permitted
  | parkDelayedOutbound =>
    exact resets_acknowledge (resets_storeDelayed timed timely permitted) _
  | ack => exact resets_acknowledge timed _

theorem resets_effect (timed : NeverResets env s) (timely : Timely origin) {c : Call}
    {reply : Reply c} (permitted : permits env.rt origin c)
    (effect : Effect env origin c s reply after) : NeverResets env after := by
  cases effect with
  | applied applies => exact resets_applies timed timely permitted applies
  | replyLost applies _ => exact resets_applies timed timely permitted applies
  | refused _ _ | elsewhere _ _ => exact timed
  | posted =>
    refine ⟨timed.ready, timed.delayed, fun post mem => ?_⟩
    rcases List.mem_cons.mp mem with rfl | old
    · exact permitted
    · exact timed.posts post old

theorem resets_promotes (lawful : LawfulTexts env.rt) {due : List String}
    (promotes : Promotes env due s after) (timed : NeverResets env s) :
    NeverResets env after := by
  induction promotes with
  | done => exact timed
  | failed _ => exact timed
  | gone _ _ ih => exact ih (resets_removeDelayed timed _)
  | @promoted id messageId rest s after fields due fresh _ ih =>
    apply ih
    apply resets_removeDelayed
    cases present : s.payloads id with
    | none => simp [present, promoteOutbound] at due
    | some text =>
      obtain ⟨timely, job, rfl, stamped⟩ := timed.delayed id text present
      rw [present] at due
      apply resets_addEntries timed timely
      intro item mem
      rw [List.mem_singleton.mp mem]
      exact consumes_of_stamped (stampedFields_promote lawful timely stamped due) timely.1 _

end Steps

/-- Clocks read positive times of at most 14 digits, and jobs that are fanned out or first
enqueued meet the condition for the time at which they are. -/
def Admits (env : Environment) (cfg : Config) (fresh : Int → OutboundJob → Prop)
    (pool : Pool Store Int Call Reply Failure Unit) :
    Label Int Event Call Reply Failure Unit → Prop
  | .act (.fanOut jobs nowMs) => Timely nowMs ∧ ∀ job ∈ jobs, fresh nowMs job
  | .start _ worker =>
    (∃ entry ∈ pool.shared.ready, ∃ fuel,
      worker = ⟨entry.origin, handleEntry env cfg fuel entry.messageId entry.fields⟩) ∨
    ∃ nowMs jobs, worker = ⟨nowMs, enqueueStamped env nowMs jobs⟩ ∧ Timely nowMs ∧
      ∀ job ∈ jobs, fresh nowMs job
  | _ => True

theorem preserves_invariant (env : Environment) (cfg : Config) (lawful : LawfulTexts env.rt) :
    Preserves (queueSystem env cfg) (Admits env cfg Unstamped) (residence env.rt)
      (Invariant env) where
  call shared duties i tag origin c reply after inv held allowed effect := by
    obtain ⟨rfl, timely⟩ := inv.2 i tag origin held
    refine ⟨resets_effect inv.1 timely allowed effect, fun j tag' origin' here => ?_⟩
    unfold setDuty at here
    split at here
    · cases here
      exact ⟨rfl, timely⟩
    · exact inv.2 j tag' origin' here
  stop shared duties i inv := by
    refine ⟨inv.1, fun j tag' origin' here => ?_⟩
    unfold setDuty at here
    split at here
    · cases here
    · exact inv.2 j tag' origin' here
  start pool duties i worker admitted inv _ _ := by
    have starts : ∃ origin, worker.tag = origin ∧ Timely origin ∧
        Only (permits env.rt origin) worker.program := by
      rcases admitted with ⟨entry, mem, fuel, rfl⟩ | ⟨nowMs, jobs, rfl, timely, fresh⟩
      · have timed := inv.1.ready entry mem
        exact ⟨_, rfl, timed.timely,
          permitted_handleEntry env cfg lawful timed.timely.1 timed.consumes fuel⟩
      · exact ⟨_, rfl, timely, permitted_enqueueStamped env lawful fresh⟩
    obtain ⟨origin, tagged, timely, only⟩ := starts
    refine ⟨origin, ?_, inv.1, fun j tag' origin' here => ?_⟩
    · apply (only.meets (fun _ allowed => allowed) fun _ _ => rfl).imp
      exact fun _ _ _ => trivial
    · unfold setDuty at here
      split at here
      · cases here
        exact ⟨tagged, timely⟩
      · exact inv.2 j tag' origin' here
  act pool duties event after admitted inv acts := by
    refine ⟨?_, inv.2⟩
    cases acts with
    | fanOut serialized fresh each timed =>
      apply resets_addEntries inv.1 admitted.1
      intro item mem
      obtain ⟨job, listed, made⟩ := mem_of_mapM serialized _ (List.of_mem_zip mem).2
      exact consumes_of_unstamped lawful (admitted.2 job listed) made
        (timed _ (List.of_mem_zip mem).1)
    | promote _ promotes => exact resets_promotes lawful promotes inv.1

/-- In every run whose jobs bring no stamp along when they are fanned out or first enqueued,
the stamp of every copy stays the time of its first entry or enqueue, and every POST of a
copy starts within the residence limit after that time. -/
theorem residence_never_resets (env : Environment) (cfg : Config) (lawful : LawfulTexts env.rt)
    (completed legacyCompleted : List String) (pool : Pool Store Int Call Reply Failure Unit)
    (run : Reaches (Step (queueSystem env cfg)) (Admits env cfg Unstamped)
      (Pool.idle (Store.initial completed legacyCompleted)) pool) :
    NeverResets env pool.shared := by
  obtain ⟨duties, inv⟩ := invariant (preserves_invariant env cfg lawful) (by
    exact ⟨⟨nofun, nofun, nofun⟩, nofun⟩) run
  exact inv.1

def stampKey : String := "apdmFirstQueuedAtMs"

def stampObject (stamp : Int) : Json := .obj [(stampKey, .num stamp)]

def stampText (stamp : Int) : String :=
  "\x7b\"apdmFirstQueuedAtMs\":" ++ toString stamp ++ "\x7d"

def isStampObject (stamp : Int) : Json → Bool
  | .obj [(key, .num value)] => key == stampKey && value == stamp
  | _ => false

theorem eq_of_isStampObject {stamp : Int} {value : Json} (is : isStampObject stamp value = true) :
    value = stampObject stamp := by
  unfold isStampObject at is
  split at is
  · obtain ⟨rfl, rfl⟩ := by simpa using is
    rfl
  · cases is

def stampRuntime (stamp : Int) : Runtime :=
  { sampleRuntime with
    stringify := fun value => if isStampObject stamp value then stampText stamp else "?"
    parse := fun text =>
      if text = "?" then .error "unread"
      else if text = stampText stamp then .ok (stampObject stamp)
      else .error "unread"
    cjsonDecode := fun _ => none
    cjsonEncode := fun _ => "?" }

variable (stamp : Int)

theorem stampRuntime_lawful (printed : stampText stamp ≠ "") :
    LawfulTexts (stampRuntime stamp) where
  printed value := by
    unfold stampRuntime
    dsimp only
    split
    · exact printed
    · decide
  parse value again read := by
    unfold stampRuntime at read
    dsimp only at read
    split at read
    next is =>
      rw [if_pos rfl] at read
      split at read
      · cases read
      · cases read
        exact (eq_of_isStampObject is).symm
    · cases read
  decode value decoded read := by cases read
  encoded value := by
    change "?" ≠ ""
    decide
  reencode value again read := by cases read
  reprint n timely := rfl

def stampEnvironment (stamp : Int) : Environment :=
  { OneDisposition.plainEnvironment with rt := stampRuntime stamp }

def stampedJob (stamp : Int) : OutboundJob :=
  ⟨"j1", "a1", "u1", "null", "b", "b.example", 0, 8, 0, none, none, some (stampObject stamp)⟩

def entryFields (stamp : Int) : Fields :=
  jobFields toString (stampedJob stamp) "null" (stampText stamp)

theorem stringify_stampObject :
    (stampRuntime stamp).stringify (stampObject stamp) = stampText stamp := by
  have is : isStampObject stamp (stampObject stamp) = true := by
    simp [isStampObject, stampObject]
  exact if_pos is

theorem serialize_stampedJob :
    serializeOutboundJob (stampRuntime stamp) OneDisposition.plainEnvironment.codec
      (stampedJob stamp) = .ok (entryFields stamp) := by
  have text : stringifyOptional (stampRuntime stamp) (stampedJob stamp).metaJson =
      stampText stamp := stringify_stampObject stamp
  simp only [serializeOutboundJob, text]
  rfl

theorem deserialize_stampedJob (printed : stampText stamp ≠ "")
    (read : stampText stamp ≠ "?") (messageId : String) :
    deserializeOutboundJob (stampRuntime stamp) OneDisposition.plainEnvironment.codec messageId
        (entryFields stamp) =
      .ok (receivedJob (stampRuntime stamp) toString (stampedJob stamp)
        (some (stampObject stamp))) := by
  apply deserialize_jobFields
  · rfl
  · change toString (0 : Int) ≠ ""
    decide
  · rw [optionalJson, optionalText_of_lookup (show _ = some (stampText stamp) from rfl),
      if_neg printed]
    change Except.map some (if stampText stamp = "?" then .error "unread"
      else if stampText stamp = stampText stamp then .ok (stampObject stamp)
      else .error "unread") = _
    rw [if_neg read, if_pos rfl]
    rfl

theorem stamped_stampObject : Stamped stamp (some (stampObject stamp)) := rfl

theorem stampText_sample : stampText 1700000240000 ≠ "" ∧ stampText 1700000240000 ≠ "?" ∧
    stampText 1700000000000 ≠ "" := by
  decide

/-- A job whose meta brings along a time four minutes ahead of its entry. -/
theorem residence_resets :
    ¬ ∀ (env : Environment) (cfg : Config) (completed legacyCompleted : List String)
        (pool : Pool Store Int Call Reply Failure Unit), LawfulTexts env.rt →
      Reaches (Step (queueSystem env cfg)) (Admits env cfg fun _ _ => True)
        (Pool.idle (Store.initial completed legacyCompleted)) pool →
      NeverResets env pool.shared := by
  intro claimed
  have made : serializeOutboundJob (stampEnvironment 1700000240000).rt
      (stampEnvironment 1700000240000).codec (stampedJob 1700000240000) =
      .ok (entryFields 1700000240000) := serialize_stampedJob _
  have acted : Acts (stampEnvironment 1700000240000)
      (.fanOut [stampedJob 1700000240000] 1700000000000) (Store.initial [] [])
      ((Store.initial [] []).addEntries 1700000000000
        (["1700000000000-0"].zip [entryFields 1700000240000])) := by
    apply Acts.fanOut
    · rw [List.mapM_cons, made]
      rfl
    · exact ⟨List.nodup_singleton _, fun _ _ missing => nomatch missing⟩
    · rfl
    · intro messageId mem
      rw [List.mem_singleton.mp mem]
      decide
  have admitted : Admits (stampEnvironment 1700000240000) OneDisposition.plainConfig
      (fun _ _ => True) (Pool.idle (Store.initial [] []))
      (.act (.fanOut [stampedJob 1700000240000] 1700000000000)) :=
    ⟨by unfold Timely; decide, fun _ _ => trivial⟩
  have timed := claimed _ _ _ _ _ (stampRuntime_lawful _ stampText_sample.1)
    (reaches_act Reaches.refl admitted acted)
  have stamped := (timed.ready _ List.mem_cons_self).consumes _
    (deserialize_stampedJob 1700000240000 stampText_sample.1 stampText_sample.2.1 _)
  have yields : consumed "1700000000000-0" (receivedJob (stampRuntime 1700000240000)
      toString (stampedJob 1700000240000) (some (stampObject 1700000240000))) =
      receivedJob (stampRuntime 1700000240000) toString (stampedJob 1700000240000)
        (some (stampObject 1700000240000)) := by
    unfold consumed
    rw [show redisStreamMessageTimestampMs "1700000000000-0" = some 1700000000000 by decide]
    apply ensureFirstQueuedAt_of_stamped
    · exact stamped_stampObject _
    · decide
  rw [yields] at stamped
  have same := (stamped_stampObject 1700000240000).symm.trans stamped
  simp at same

def produced : Store :=
  (Store.initial [] []).addEntries 1700000000000
    (["1700000000000-0"].zip [entryFields 1700000000000])

theorem residence_never_resets_produced :
    NeverResets (stampEnvironment 1700000000000) produced := by
  have stamping : ensureFirstQueuedAt { stampedJob 1700000000000 with metaJson := none }
      1700000000000 = stampedJob 1700000000000 := rfl
  have program : enqueueStamped (stampEnvironment 1700000000000) 1700000000000
      [{ stampedJob 1700000000000 with metaJson := none }] =
      .call (.addReady [entryFields 1700000000000]) .done := by
    have made : serializeOutboundJob (stampEnvironment 1700000000000).rt
        (stampEnvironment 1700000000000).codec (stampedJob 1700000000000) =
        .ok (entryFields 1700000000000) := serialize_stampedJob _
    rw [enqueueStamped_single, stamping]
    unfold enqueueOne
    rw [if_neg (by decide), made]
  have unstamped : ∀ job ∈ [{ stampedJob 1700000000000 with metaJson := none }],
      Unstamped 1700000000000 job := by
    intro job mem value carried
    rw [List.mem_singleton.mp mem] at carried
    cases carried
  have admitted : Admits (stampEnvironment 1700000000000) OneDisposition.plainConfig Unstamped
      (Pool.idle (Store.initial [] [])) (.start 0 ⟨1700000000000, _⟩) :=
    .inr ⟨_, _, rfl, by unfold Timely; decide, unstamped⟩
  have starts : Starts (stampEnvironment 1700000000000) OneDisposition.plainConfig
      (Store.initial [] []) _ :=
    .produce 1700000000000 [{ stampedJob 1700000000000 with metaJson := none }]
  have started : Reaches
      (Step (queueSystem (stampEnvironment 1700000000000) OneDisposition.plainConfig))
      (Admits (stampEnvironment 1700000000000) OneDisposition.plainConfig Unstamped) _ _ :=
    reaches_start Reaches.refl admitted starts
  rw [program] at started
  have fresh : Fresh (Store.initial [] []) ["1700000000000-0"] :=
    ⟨List.nodup_singleton _, fun _ _ missing => nomatch missing⟩
  exact residence_never_resets _ OneDisposition.plainConfig
    (stampRuntime_lawful _ stampText_sample.2.2) [] [] _
    (reaches_call started trivial (.applied (.addReady fresh rfl)))

end MastopodFederation.Guarantees.FirstEnqueue
