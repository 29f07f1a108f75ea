import MastopodFederation.Lib.Logged
import MastopodFederation.Source.DelayedPromotion

/-!
# What one bad delayed record does to a promotion run

A run settles the due ids in order and ends at the first that raises. A run serves its batch
exactly when no id of the batch has such a payload, and a well-formed record is promoted in the
end exactly when no record that is due before it has.
-/
namespace MastopodFederation.Guarantees.DelayedPromotionRuns
open Lib.DueBatches Source.DelayedPromotion

variable {σ : Type} (rt : Runtime σ)

def field : LuaValue → String → Option LuaValue
  | .table _ entries, key => entries.lookup key
  | _, _ => none

def Printable : Option LuaValue → Prop
  | some (.str _) => True
  | some (.num value) => (rt.numberArgument value).isSome
  | _ => False

def Encodable (value : Option LuaValue) : Prop := ∀ given, value = some given → encodable given

/-- The fields of a table that the intents' script hands to redis.call and cjson.encode beyond
those whose types it checks. -/
structure IntentPrintable (intent : LuaValue) : Prop where
  targets : Encodable (field intent "targets")
  lastError : truthy (field intent "lastError") → Printable rt (field intent "lastError")
  metaData : Encodable (field intent "meta")
  bridgeHints : Encodable (field intent "bridgeHints")

structure WellFormedIntent (id : String) (intent : LuaValue) : Prop where
  typed : isIntent rt id intent = .ok true
  printable : IntentPrintable rt intent

def IntentHarmless (id : String) (payload : Option String) : Prop :=
  match payload.bind rt.cjsonDecode with
  | none | some (.bool false) | some (.str _) => True
  | some .null | some (.bool true) | some (.num _) => False
  | some (.table items entries) =>
    isIntent rt id (.table items entries) = .ok true → IntentPrintable rt (.table items entries)

/-- The fields of a decoded job that the outbound script hands to redis.call and
cjson.encode. -/
structure JobPrintable (job : LuaValue) : Prop where
  jobId : Printable rt (field job "jobId")
  activityId : Printable rt (field job "activityId")
  actorUri : Printable rt (field job "actorUri")
  activity : Printable rt (field job "activity")
  targetInbox : Printable rt (field job "targetInbox")
  targetDomain : Printable rt (field job "targetDomain")
  lastError : truthy (field job "lastError") → Printable rt (field job "lastError")
  metaData : Encodable (field job "meta")

def JobWellFormed (payload : Option String) : Prop :=
  ∃ job, payload.bind rt.cjsonDecode = some job ∧ JobPrintable rt job

variable {rt}

theorem index_table (items : List LuaValue) (entries : List (String × LuaValue)) (key : String) :
    index (.table items entries) key = .ok (field (.table items entries) key) := rfl

variable {value : Option LuaValue}

theorem argument_ok_iff :
    (∃ text, argument rt value = .ok text) ↔ Printable rt value := by
  rcases value with _ | (_ | _ | number | _ | _)
  case some.num =>
    cases text : rt.numberArgument number <;> simp [argument, Printable, text]
  all_goals simp [argument, Printable]

theorem argumentOr_ok_iff :
    (∃ text, argumentOr rt value = .ok text) ↔ (truthy value → Printable rt value) := by
  by_cases given : truthy value
  · simp only [argumentOr, given, if_true, true_implies]
    exact argument_ok_iff
  · simp [argumentOr, given]

theorem encodeOptional_ok_iff :
    (∃ text, encodeOptional rt value = .ok text) ↔ Encodable value := by
  cases value with
  | none => simp [encodeOptional, Encodable]
  | some given =>
    by_cases finite : encodable given <;> simp [encodeOptional, encode, Encodable, finite]

theorem bind_ok_iff {ε α β : Type} {x : Except ε α} {f : α → Except ε β} :
    (∃ b : β, x >>= f = .ok b) ↔ ∃ a, x = .ok a ∧ ∃ b : β, f a = .ok b := by
  cases x <;> simp [bind, Except.bind]

theorem pure_ok_iff {ε α : Type} {a : α} :
    (∃ b, (pure a : Except ε α) = .ok b) ↔ True := by
  simp [pure, Except.pure]

theorem jobFields_ok_iff {job : LuaValue} :
    (∃ fields, jobFields rt job = .ok fields) ↔ JobPrintable rt job := by
  cases job with
  | table items entries =>
    simp only [jobFields, index_table, bind_ok_iff, pure_ok_iff, Except.ok.injEq, exists_eq_left',
      exists_and_right, and_true, argument_ok_iff, argumentOr_ok_iff, encodeOptional_ok_iff]
    constructor
    · rintro ⟨metaData, jobId, activityId, actorUri, activity, inbox, domain, lastError⟩
      exact ⟨jobId, activityId, actorUri, activity, inbox, domain, lastError, metaData⟩
    · rintro ⟨jobId, activityId, actorUri, activity, inbox, domain, lastError, metaData⟩
      exact ⟨metaData, jobId, activityId, actorUri, activity, inbox, domain, lastError⟩
  | null | bool _ | num _ | str _ =>
    constructor
    · rintro ⟨fields, given⟩
      cases given
    · intro printable
      exact absurd printable.jobId id

theorem isIntent_table (rt : Runtime σ) (id : String) (items : List LuaValue)
    (entries : List (String × LuaValue)) :
    ∃ valid, isIntent rt id (.table items entries) = .ok valid := ⟨_, rfl⟩

theorem isString_printable (text : isString value) :
    Printable rt value := by
  unfold isString at text
  split at text
  · trivial
  · cases text

variable {id : String}

theorem isText_isString (text : isText id value) :
    isString value := by
  unfold isText at text
  split at text
  · rfl
  · cases text

theorem encode_table_ok_iff (table : isTable value) :
    (∃ text, encode rt (value.getD .null) = .ok text) ↔ Encodable value := by
  cases value with
  | none => cases table
  | some given =>
    by_cases finite : encodable given <;> simp [encode, Encodable, finite]

theorem intentFields_ok_iff {items : List LuaValue}
    {entries : List (String × LuaValue)} (valid : isIntent rt id (.table items entries) = .ok true) :
    (∃ fields, intentFields rt (.table items entries) = .ok fields) ↔
      IntentPrintable rt (.table items entries) := by
  have checked := Except.ok.inj valid
  simp only [Bool.and_eq_true] at checked
  obtain ⟨⟨⟨⟨⟨⟨⟨⟨intentId, activityId⟩, actorUri⟩, activity⟩, targets⟩, _⟩, _⟩, _⟩, _⟩ := checked
  have intentId : Printable rt (field (.table items entries) "intentId") :=
    isString_printable (isText_isString intentId)
  have activityId : Printable rt (field (.table items entries) "activityId") :=
    isString_printable activityId
  have actorUri : Printable rt (field (.table items entries) "actorUri") :=
    isString_printable actorUri
  have activity : Printable rt (field (.table items entries) "activity") :=
    isString_printable activity
  change isTable (field (.table items entries) "targets") = true at targets
  simp only [intentFields, index_table, bind_ok_iff, pure_ok_iff, Except.ok.injEq, exists_eq_left',
    exists_and_right, and_true, argument_ok_iff, argumentOr_ok_iff, encodeOptional_ok_iff,
    encode_table_ok_iff targets, intentId, activityId, actorUri, activity, true_and]
  constructor
  · rintro ⟨metaData, bridgeHints, targets, lastError⟩
    exact ⟨targets, lastError, metaData, bridgeHints⟩
  · rintro ⟨targets, lastError, metaData, bridgeHints⟩
    exact ⟨metaData, bridgeHints, targets, lastError⟩

theorem WellFormedIntent.fields {intent : LuaValue}
    (wellFormed : WellFormedIntent rt id intent) :
    ∃ fields, intentFields rt intent = .ok fields := by
  cases intent with
  | table items entries => exact (intentFields_ok_iff wellFormed.typed).mpr wellFormed.printable
  | null | bool _ | num _ | str _ => exact nomatch wellFormed.typed

variable {payload : Option String}

theorem promoteIntent_ok_iff (now : σ) :
    (∃ disposal, promoteIntent rt now id payload = .ok disposal) ↔
      IntentHarmless rt id payload := by
  unfold promoteIntent IntentHarmless
  rcases payload.bind rt.cjsonDecode with _ | (_ | (_ | _) | _ | _ | ⟨items, entries⟩)
  case some.table =>
    obtain ⟨valid, checked⟩ := isIntent_table rt id items entries
    cases valid with
    | false => simp [checked, bind_ok_iff, pure_ok_iff]
    | true =>
      simp only [checked, bind_ok_iff, pure_ok_iff, Except.ok.injEq, exists_eq_left', if_true,
        and_true, true_implies]
      exact intentFields_ok_iff checked
  all_goals simp [isIntent, index, bind, Except.bind, pure, Except.pure, isText]

theorem promoteIntent_not_dropped {now : σ} :
    promoteIntent rt now id payload ≠ .ok .dropped := by
  unfold promoteIntent
  rcases payload.bind rt.cjsonDecode with _ | (_ | (_ | _) | _ | _ | ⟨items, entries⟩)
  case some.table =>
    intro dropped
    obtain ⟨valid, checked, rest⟩ := Lib.Logged.except_bind_ok.mp dropped
    cases valid with
    | false => cases rest
    | true =>
      obtain ⟨fields, _, ready⟩ := Lib.Logged.except_bind_ok.mp rest
      cases ready
  all_goals simp [isIntent, index, bind, Except.bind, pure, Except.pure, isText]

theorem promoteIntent_ready {now : σ} {text : String} {decoded : LuaValue} {fields : Fields}
    (payload : rt.cjsonDecode text = some decoded) (valid : isIntent rt id decoded = .ok true)
    (printed : intentFields rt decoded = .ok fields) :
    promoteIntent rt now id (some text) = .ok (.ready fields) := by
  unfold promoteIntent
  rw [Option.bind_some, payload]
  split
  · contradiction
  · rename_i same
    cases same
    cases valid
  · rename_i same
    cases same
    simp [valid, printed, bind, Except.bind, pure, Except.pure]

theorem promoteJob_some (id : String) {text : String} {job : LuaValue}
    (payload : rt.cjsonDecode text = some job) :
    (∃ fields, promoteJob rt id (some text) = .ok (.ready fields) ∧
      jobFields rt job = .ok fields) ∨
    ((∃ error, promoteJob rt id (some text) = .error error) ∧ ¬ JobPrintable rt job) := by
  simp only [promoteJob, payload]
  split
  · contradiction
  · rename_i same
    cases same
    exact .inr ⟨⟨_, rfl⟩, fun printable => printable.jobId⟩
  · rename_i same
    cases same
    cases made : jobFields rt job with
    | ok fields => exact .inl ⟨fields, rfl, rfl⟩
    | error error =>
      refine .inr ⟨⟨error, rfl⟩, fun printable => ?_⟩
      obtain ⟨fields, given⟩ := jobFields_ok_iff.mpr printable
      rw [made] at given
      cases given

theorem promoteJob_ready_iff (id : String) :
    (∃ disposal, promoteJob rt id payload = .ok disposal ∧ disposal ≠ .dropped) ↔
      JobWellFormed rt payload := by
  cases payload with
  | none => simp [promoteJob, JobWellFormed]
  | some text =>
    cases decoded : rt.cjsonDecode text with
    | none => simp [promoteJob, JobWellFormed, decoded]
    | some job =>
      have own : JobWellFormed rt (some text) ↔ JobPrintable rt job := by
        simp [JobWellFormed, decoded]
      rw [own]
      rcases promoteJob_some id decoded with
        ⟨fields, given, made⟩ | ⟨⟨error, given⟩, not⟩
      · have printable := jobFields_ok_iff.mp ⟨fields, made⟩
        simp [given, printable]
      · simp [given, not]

theorem promoteJob_ok_iff (id : String) :
    (∃ disposal, promoteJob rt id payload = .ok disposal) ↔
      payload = none ∨ JobWellFormed rt payload := by
  rw [← promoteJob_ready_iff id]
  cases payload with
  | none => simp [promoteJob]
  | some text =>
    constructor
    · rintro ⟨disposal, given⟩
      refine .inr ⟨disposal, given, ?_⟩
      rintro rfl
      cases decoded : rt.cjsonDecode text with
      | none => simp [promoteJob, decoded] at given
      | some job =>
        rcases promoteJob_some id decoded with ⟨_, ready, _⟩ | ⟨⟨_, failed⟩, _⟩
        · cases given.symm.trans ready
        · cases given.symm.trans failed
    · rintro (absent | ⟨disposal, given, _⟩)
      · contradiction
      · exact ⟨disposal, given⟩

section Run
variable [LinearOrder σ]

/-- The run left nothing of the due id but an entry that it appended to the ready stream or to
the DLQ. -/
def Cleared (before after : DelayStore σ) (id : String) : Prop :=
  id ∉ after.schedule.keys ∧ after.payloads id = none ∧
    ∃ entry ∈ after.out.ready.drop before.out.ready.length ++
      after.out.dlq.drop before.out.dlq.length, entry.source = id

def Serves (batch : Nat) (store : DelayStore σ) (now : σ)
    (run : DelayStore σ × Except ScriptError Nat) : Prop :=
  (∃ count, run.2 = .ok count) ∧
    ∀ id ∈ store.schedule.due now batch, Cleared store run.1 id

def readyEntry : String × Disposal → Option StreamEntry
  | (id, .ready fields) => some ⟨id, fields⟩
  | _ => none

def dlqEntry : String × Disposal → Option StreamEntry
  | (id, .dlq fields) => some ⟨id, fields⟩
  | _ => none

theorem added_all (results : List (String × Disposal)) (streams : Streams) :
    results.foldl (fun out entry => out.add entry.1 entry.2) streams =
      ⟨streams.ready ++ results.filterMap readyEntry,
        streams.dlq ++ results.filterMap dlqEntry⟩ := by
  induction results generalizing streams with
  | nil => simp
  | cons entry rest ih =>
    obtain ⟨id, disposal⟩ := entry
    rw [List.foldl_cons, ih]
    cases disposal <;> simp [Streams.add, readyEntry, dlqEntry, List.filterMap_cons]

variable {handle : String → Option String → Except ScriptError Disposal} {batch : Nat}
  {store : DelayStore σ} {now : σ} {results : List (String × Disposal)}

theorem source_of_appended {entry : StreamEntry}
    (mem : entry ∈ results.filterMap readyEntry ++ results.filterMap dlqEntry) :
    ∃ disposal, (entry.source, disposal) ∈ results ∧ disposal ≠ .dropped := by
  rcases List.mem_append.mp mem with ready | dlq
  · obtain ⟨⟨id, disposal⟩, inside, given⟩ := List.mem_filterMap.mp ready
    cases disposal <;> simp only [readyEntry, Option.some.injEq, reduceCtorEq] at given
    subst given
    exact ⟨_, inside, nofun⟩
  · obtain ⟨⟨id, disposal⟩, inside, given⟩ := List.mem_filterMap.mp dlq
    cases disposal <;> simp only [dlqEntry, Option.some.injEq, reduceCtorEq] at given
    subst given
    exact ⟨_, inside, nofun⟩

variable {id : String}

theorem appended_of_result
    {disposal : Disposal} (mem : (id, disposal) ∈ results) (kept : disposal ≠ .dropped) :
    ∃ entry ∈ results.filterMap readyEntry ++ results.filterMap dlqEntry, entry.source = id := by
  cases disposal with
  | ready fields =>
    exact ⟨⟨id, fields⟩, List.mem_append_left _ (List.mem_filterMap.mpr ⟨_, mem, rfl⟩), rfl⟩
  | dlq fields =>
    exact ⟨⟨id, fields⟩, List.mem_append_right _ (List.mem_filterMap.mpr ⟨_, mem, rfl⟩), rfl⟩
  | dropped => exact absurd rfl kept

theorem serves_iff :
    Serves batch store now
      ((duePass handle Streams.add batch store now).1,
        (duePass handle Streams.add batch store now).2.map
          fun results => (results.map promoted).sum) ↔
      ∀ id ∈ store.schedule.due now batch,
        ∃ disposal, handle id (store.payloads id) = .ok disposal ∧ disposal ≠ .dropped := by
  have nodup := store.schedule.due_nodup now batch
  have finishes : (∃ count, (duePass handle Streams.add batch store now).2.map
      (fun results => (results.map promoted).sum) = .ok count) ↔
      ∀ id ∈ store.schedule.due now batch, Fine handle store.payloads id := by
    have passed : (∃ results, (duePass handle Streams.add batch store now).2 = .ok results) ↔
        ∀ id ∈ store.schedule.due now batch, Fine handle store.payloads id :=
      pass_ok_iff nodup store
    rw [← passed]
    cases (duePass handle Streams.add batch store now).2 <;> simp [Except.map]
  have out : (duePass handle Streams.add batch store now).1.out = _ :=
    (congrArg Store.out (pass_store nodup store)).trans
      ((settleAll_out _ _).trans (added_all (settledAt handle batch store now) _))
  have appended : (duePass handle Streams.add batch store now).1.out.ready.drop
        store.out.ready.length ++
      (duePass handle Streams.add batch store now).1.out.dlq.drop store.out.dlq.length =
      (settledAt handle batch store now).filterMap readyEntry ++
        (settledAt handle batch store now).filterMap dlqEntry := by
    rw [out]
    simp
  constructor
  · rintro ⟨finished, cleared⟩ id due
    obtain ⟨_, _, entry, mem, rfl⟩ := cleared id due
    rw [appended] at mem
    obtain ⟨disposal, inside, kept⟩ := source_of_appended mem
    exact ⟨disposal, handled_of_written inside, kept⟩
  · intro served
    have fine : ∀ id ∈ store.schedule.due now batch, Fine handle store.payloads id := by
      intro id due
      obtain ⟨disposal, given, _⟩ := served id due
      exact ⟨disposal, given⟩
    have settled := settledAt_keys fine
    refine ⟨finishes.mpr fine, fun id due => ?_⟩
    have inside : id ∈ (settledAt handle batch store now).map Prod.fst := by rwa [settled]
    refine ⟨fun kept => not_settled_of_kept kept inside, ?_, ?_⟩
    · rw [duePass, pass_store nodup store, settleAll_payloads]
      exact if_pos inside
    · rw [appended]
      obtain ⟨⟨own, disposal⟩, mem, rfl⟩ := List.mem_map.mp inside
      obtain ⟨other, given, kept⟩ := served own due
      have same := (handled_of_written mem).symm.trans given
      cases same
      exact appended_of_result mem kept

theorem promoteDue_serves_iff :
    Serves batch store now (promoteDue rt batch store now) ↔
      ∀ id ∈ store.schedule.due now batch, IntentHarmless rt id (store.payloads id) := by
  refine serves_iff.trans (forall₂_congr fun id _ => ?_)
  rw [← promoteIntent_ok_iff now]
  constructor
  · rintro ⟨disposal, given, _⟩
    exact ⟨disposal, given⟩
  · rintro ⟨disposal, given⟩
    exact ⟨disposal, given, fun dropped => promoteIntent_not_dropped (dropped ▸ given)⟩

theorem promoteDueOutbound_serves_iff :
    Serves delayedOutboundPromotionBatchSize store now (promoteDueOutbound rt store now) ↔
      ∀ id ∈ store.schedule.due now delayedOutboundPromotionBatchSize,
        JobWellFormed rt (store.payloads id) :=
  serves_iff.trans (forall₂_congr fun id _ => promoteJob_ready_iff id)

/-- The id left the schedule and the hash, and the ready stream has an entry with the fields
that the script makes of the record. -/
def Promoted (made : Except ScriptError Fields) (id : String) (store : DelayStore σ) : Prop :=
  id ∉ store.schedule.keys ∧ store.payloads id = none ∧
    ∃ fields, made = .ok fields ∧ ⟨id, fields⟩ ∈ store.out.ready

variable {handleAt : σ → String → Option String → Except ScriptError Disposal}

variable {times : Nat → σ}

theorem promoted_of_left {fields : Fields}
    (handled : ∀ now, handleAt now id (store.payloads id) = .ok (.ready fields))
    (scheduled : id ∈ store.schedule.keys) {count : Nat}
    (gone : id ∉ (passes Streams.add handleAt batch store times count).schedule.keys) :
    Promoted (.ok fields) id (passes Streams.add handleAt batch store times count) := by
  have own : ∀ out : Streams, ⟨id, fields⟩ ∈ (out.add id (.ready fields)).ready := by
    intro out
    simp [Streams.add]
  have stable : ∀ (out : Streams) (other : String) (disposal : Disposal),
      ⟨id, fields⟩ ∈ out.ready → ⟨id, fields⟩ ∈ (out.add other disposal).ready := by
    intro out other disposal mem
    cases disposal <;> simp [Streams.add, mem]
  rcases written_of_left handled own stable scheduled count with ⟨still, _⟩ | ⟨empty, there⟩
  · exact absurd still gone
  · exact ⟨gone, empty, fields, rfl, there⟩

theorem promoteDueRuns_eq (batch : Nat) (store : DelayStore σ) (times : Nat → σ) (count : Nat) :
    promoteDueRuns rt batch store times count =
      passes Streams.add (promoteIntent rt) batch store times count := by
  induction count with
  | zero => rfl
  | succ count ih =>
    rw [promoteDueRuns, ih]
    rfl

theorem promoteDueOutboundRuns_eq (store : DelayStore σ) (times : Nat → σ) (count : Nat) :
    promoteDueOutboundRuns rt store times count =
      passes Streams.add (fun _ => promoteJob rt) delayedOutboundPromotionBatchSize store times
        count := by
  induction count with
  | zero => rfl
  | succ count ih =>
    rw [promoteDueOutboundRuns, ih]
    rfl

/-- A well-formed intent is promoted in the end exactly when runs take at least one id and no
record that is due before it raises. -/
theorem intent_promoted_iff {earlier later : List (σ × String)} {time : σ}
    {text : String} {intent : LuaValue}
    (split : store.schedule.entries = earlier ++ (time, id) :: later)
    (come : ∀ count, time ≤ times count) (payload : store.payloads id = some text)
    (decoded : rt.cjsonDecode text = some intent) (wellFormed : WellFormedIntent rt id intent) :
    (∃ count, Promoted (intentFields rt intent) id (promoteDueRuns rt batch store times count)) ↔
      0 < batch ∧ ∀ other ∈ earlier, IntentHarmless rt other.2 (store.payloads other.2) := by
  obtain ⟨fields, made⟩ := wellFormed.fields
  have handled : ∀ now, promoteIntent rt now id (store.payloads id) = .ok (.ready fields) := by
    intro now
    rw [payload]
    exact promoteIntent_ready decoded wellFormed.typed made
  have own : IntentHarmless rt id (store.payloads id) :=
    (promoteIntent_ok_iff (times 0)).mp ⟨_, handled _⟩
  have scheduled : id ∈ store.schedule.keys := by simp [Schedule.keys, split]
  have leaves : (∃ count,
      id ∉ (passes Streams.add (promoteIntent rt) batch store times count).schedule.keys) ↔
      0 < batch ∧ ∀ other ∈ earlier ++ [(time, id)],
        IntentHarmless rt other.2 (store.payloads other.2) :=
    leaves_iff store times split come (IntentHarmless rt) fun now _ => promoteIntent_ok_iff now
  simp only [List.forall_mem_append, List.forall_mem_singleton, own, and_true] at leaves
  rw [← leaves]
  simp only [promoteDueRuns_eq, made]
  constructor
  · rintro ⟨count, gone, -⟩
    exact ⟨count, gone⟩
  · rintro ⟨count, gone⟩
    exact ⟨count, promoted_of_left handled scheduled gone⟩

/-- A well-formed job is promoted in the end exactly when no record that is due before it
raises or is answered with an error reply. -/
theorem job_promoted_iff {earlier later : List (σ × String)} {time : σ}
    {text : String} {job : LuaValue}
    (split : store.schedule.entries = earlier ++ (time, id) :: later)
    (come : ∀ count, time ≤ times count) (payload : store.payloads id = some text)
    (decoded : rt.cjsonDecode text = some job) (printable : JobPrintable rt job) :
    (∃ count, Promoted (jobFields rt job) id (promoteDueOutboundRuns rt store times count)) ↔
      ∀ other ∈ earlier,
        store.payloads other.2 = none ∨ JobWellFormed rt (store.payloads other.2) := by
  have wellFormed : JobWellFormed rt (store.payloads id) := ⟨job, by simp [payload, decoded], printable⟩
  obtain ⟨fields, handled, made⟩ : ∃ fields, promoteJob rt id (store.payloads id) =
      .ok (.ready fields) ∧ jobFields rt job = .ok fields := by
    rw [payload]
    exact (promoteJob_some id decoded).resolve_right fun failed => failed.2 printable
  have scheduled : id ∈ store.schedule.keys := by simp [Schedule.keys, split]
  have leaves : (∃ count, id ∉ (passes Streams.add (fun _ => promoteJob rt)
      delayedOutboundPromotionBatchSize store times count).schedule.keys) ↔
      0 < delayedOutboundPromotionBatchSize ∧ ∀ other ∈ earlier ++ [(time, id)],
        store.payloads other.2 = none ∨ JobWellFormed rt (store.payloads other.2) :=
    leaves_iff store times split come (fun _ payload => payload = none ∨ JobWellFormed rt payload)
      fun _ key => promoteJob_ok_iff key
  simp only [List.forall_mem_append, List.forall_mem_singleton, wellFormed, or_true, and_true,
    show 0 < delayedOutboundPromotionBatchSize by decide, true_and] at leaves
  rw [← leaves]
  simp only [promoteDueOutboundRuns_eq, made]
  constructor
  · rintro ⟨count, gone, -⟩
    exact ⟨count, gone⟩
  · rintro ⟨count, gone⟩
    exact ⟨count, promoted_of_left (fun _ => handled) scheduled gone⟩

/-- A run of either script serves its batch exactly when no payload of the batch raises, and no
due job is without one; a well-formed record is promoted in the end exactly when no record
that is due before it raises. -/
theorem promotion_iff (rt : Runtime σ) :
    (∀ batch (store : DelayStore σ) now,
      Serves batch store now (promoteDue rt batch store now) ↔
        ∀ id ∈ store.schedule.due now batch, IntentHarmless rt id (store.payloads id)) ∧
    (∀ (store : DelayStore σ) now,
      Serves delayedOutboundPromotionBatchSize store now (promoteDueOutbound rt store now) ↔
        ∀ id ∈ store.schedule.due now delayedOutboundPromotionBatchSize,
          JobWellFormed rt (store.payloads id)) ∧
    (∀ batch (store : DelayStore σ) times earlier later time id text intent,
      store.schedule.entries = earlier ++ (time, id) :: later → (∀ count, time ≤ times count) →
      store.payloads id = some text → rt.cjsonDecode text = some intent →
      WellFormedIntent rt id intent →
      ((∃ count, Promoted (intentFields rt intent) id
          (promoteDueRuns rt batch store times count)) ↔
        0 < batch ∧ ∀ other ∈ earlier, IntentHarmless rt other.2 (store.payloads other.2))) ∧
    (∀ (store : DelayStore σ) times earlier later time id text job,
      store.schedule.entries = earlier ++ (time, id) :: later → (∀ count, time ≤ times count) →
      store.payloads id = some text → rt.cjsonDecode text = some job → JobPrintable rt job →
      ((∃ count, Promoted (jobFields rt job) id (promoteDueOutboundRuns rt store times count)) ↔
        ∀ other ∈ earlier,
          store.payloads other.2 = none ∨ JobWellFormed rt (store.payloads other.2))) :=
  ⟨fun _ _ _ => promoteDue_serves_iff, fun _ _ => promoteDueOutbound_serves_iff,
    fun _ _ _ _ _ _ _ _ _ split come payload decoded wellFormed =>
      intent_promoted_iff split come payload decoded wellFormed,
    fun _ _ _ _ _ _ _ _ split come payload decoded printable =>
      job_promoted_iff split come payload decoded printable⟩

end Run

def noteIntent : LuaValue := .table [] [
  ("intentId", .str "note"), ("activityId", .str "create"), ("actorUri", .str "alice"),
  ("activity", .str "[]"), ("targets", .table [] []), ("createdAt", .num (some 1)),
  ("attempt", .num (some 1)), ("maxAttempts", .num (some 8)), ("notBeforeMs", .num (some 2))]

def noteJob : LuaValue := .table [] [
  ("jobId", .str "note"), ("activityId", .str "create"), ("actorUri", .str "alice"),
  ("activity", .str "[]"), ("targetInbox", .str "inbox"), ("targetDomain", .str "remote")]

def plainLua : Runtime Nat where
  cjsonDecode text :=
    if text = "intent" then some noteIntent
    else if text = "job" then some noteJob
    else if text = "5" then some (.num (some 5))
    else none
  cjsonEncode _ := "encoded"
  tostring _ := "printed"
  numeral _ := false
  numberArgument _ := none
  timeText _ := "now"

def twoRecords (five note : String) : DelayStore Nat where
  schedule := ⟨[(1, "five"), (2, "note")], by decide, by decide⟩
  payloads id := if id = "five" then some five else if id = "note" then some note else none
  out := ⟨[], []⟩

theorem noteIntent_wellFormed : WellFormedIntent plainLua "note" noteIntent where
  typed := by rfl
  printable := {
    targets := by rintro _ ⟨⟩; rfl
    lastError := nofun
    metaData := nofun
    bridgeHints := nofun }

theorem noteJob_printable : JobPrintable plainLua noteJob := by
  constructor
  case lastError => exact nofun
  case metaData => exact nofun
  all_goals trivial

theorem promotion_iff_notes :
    ((∃ count, Promoted (intentFields plainLua noteIntent) "note"
        (promoteDueRuns plainLua 100 (twoRecords "\x7b" "intent") (fun _ => 3) count)) ↔
      0 < 100 ∧ ∀ other ∈ [(1, "five")],
        IntentHarmless plainLua other.2 ((twoRecords "\x7b" "intent").payloads other.2)) ∧
    ((∃ count, Promoted (jobFields plainLua noteJob) "note"
        (promoteDueOutboundRuns plainLua (twoRecords "job" "job") (fun _ => 3) count)) ↔
      ∀ other ∈ [(1, "five")], (twoRecords "job" "job").payloads other.2 = none ∨
        JobWellFormed plainLua ((twoRecords "job" "job").payloads other.2)) :=
  ⟨(promotion_iff plainLua).2.2.1 100 (twoRecords "\x7b" "intent") (fun _ => 3) [(1, "five")] [] 2
      "note" "intent" noteIntent rfl (fun _ => by decide) rfl rfl noteIntent_wellFormed,
    (promotion_iff plainLua).2.2.2 (twoRecords "job" "job") (fun _ => 3) [(1, "five")] [] 2
      "note" "job" noteJob rfl (fun _ => by decide) rfl rfl noteJob_printable⟩

/-- A payload that is the number five ends every run of the intents' script before the record
behind it, and no number of runs promotes that record. -/
theorem number_blocks_intents :
    ¬ Serves 100 (twoRecords "5" "intent") 3 (promoteDue plainLua 100 (twoRecords "5" "intent") 3) ∧
      WellFormedIntent plainLua "note" noteIntent ∧
      ¬ ∃ count, Promoted (intentFields plainLua noteIntent) "note"
        (promoteDueRuns plainLua 100 (twoRecords "5" "intent") (fun _ => 3) count) := by
  have harmful : ¬ IntentHarmless plainLua "five" ((twoRecords "5" "intent").payloads "five") := id
  refine ⟨fun serves => ?_, noteIntent_wellFormed, fun promoted => ?_⟩
  · exact harmful (promoteDue_serves_iff.mp serves "five" (by decide +kernel))
  · have split : (twoRecords "5" "intent").schedule.entries = [(1, "five")] ++ (2, "note") :: [] :=
      rfl
    have earlier := (intent_promoted_iff split (fun _ => by decide) rfl rfl
      noteIntent_wellFormed).mp promoted
    exact harmful (earlier.2 (1, "five") List.mem_cons_self)

end MastopodFederation.Guarantees.DelayedPromotionRuns
