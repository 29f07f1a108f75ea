import MastopodFederation.Lib.PoolRuns
import MastopodFederation.Lib.WriteBehind
import MastopodFederation.Source.OpenSearchIndexer

/-!
# What the activity index holds

A document waits in memory while its offset is resolved already. It reaches the index where no item of
a bulk call is refused, no process crashes and no batch is left while resolved documents wait, and bulk
calls that overlap share no activity; a tombstone is final where nothing that waits has its ids.
-/
namespace MastopodFederation.Guarantees.ActivityIndex
open Lib Lib.Calls Lib.WorkerPool Lib.GuardedRun Lib.PoolRuns Lib.WriteBehind
open Lib.LuaTable (Json)
open Source.OpenSearchIndexer
open Source.ActivityDocuments (Value ActivityDocument)
open Source.SigningService (truthy)

section
variable (env : Environment) (log : Partition → List Message) (batchSize : Nat)

def mapped (topic : Topic) (message : Message) : Option ActivityDocument :=
  match topic with
  | .tombstone => none
  | .firehose =>
    match eventOf env message with
    | .ok (some event) => ((documentOf env event).toOption).join
    | _ => none

def MapsTo (partition : Partition) (offset : Nat) (document : ActivityDocument) : Prop :=
  ∃ message, (log partition)[offset]? = some message ∧
    mapped env partition.topic message = some document

def Names (activityId objectId : Value) (field : Field) (id : Json) : Prop :=
  truthy (some id) = true ∧
    match field with
    | .activityId => activityId = some id
    | .objectId => objectId = some id

def sending : Run Unit → List Entry
  | .call (.bulk docs) _ => docs
  | .call (.unshift docs) _ => docs
  | _ => []

def underWay (pool : IndexerPool) (i : Nat) : List Entry :=
  match pool.workers i with
  | none => []
  | some worker => sending worker.program

def Waiting (pool : IndexerPool) (entry : Entry) : Prop :=
  entry ∈ pool.shared.batch ∨ ∃ i, entry ∈ underWay pool i

def Flushed (pool : IndexerPool) : Prop :=
  (∀ partition, (log partition).length ≤ pool.shared.position partition) ∧
    ∀ entry, ¬ Waiting pool entry

def Since (s : Indexer) (n : Nat) (P : Event → Prop) : Prop :=
  ∃ k event, n < k ∧ s.events[k]? = some event ∧ P event

def Consumed (s : Indexer) (n : Nat) (entry : Entry) : Prop :=
  s.events[n]? = some (.consumed entry)

/-- The document of a message that was consumed as the `n`-th event is in the index, unless it was
deleted since by one of its ids, or another document came under its activity id. -/
def Present (s : Indexer) (n : Nat) (entry : Entry) : Prop :=
  (Since s n fun event => ∃ field id, event = .deleted field id ∧
    finds env field id entry.document = true) ∨
  (Since s n fun event => ∃ other, event = .consumed other ∧ other.id env = entry.id env ∧
    other.document ≠ entry.document) ∨
  ∃ stored, s.index (entry.id env) = some stored ∧ stored.document = entry.document

structure Faithful (pool : IndexerPool) : Prop where
  present : Flushed log pool → ∀ partition offset document,
    offset < pool.shared.position partition → MapsTo env log partition offset document →
    (∃ n entry, Consumed pool.shared n entry ∧ entry.partition = partition ∧
      entry.offset = offset) ∧
    ∀ n entry, Consumed pool.shared n entry → entry.partition = partition →
      entry.offset = offset → Present env pool.shared n entry
  absent : ∀ k activityId objectId, pool.shared.events[k]? = some (.tombstone activityId objectId) →
    ∀ n entry, n < k → Consumed pool.shared n entry →
      ∀ field id, Names activityId objectId field id → finds env field id entry.document = true →
        ∀ key, pool.shared.index key ≠ some entry

def Apart (pool : IndexerPool) (docs : List Entry) : Prop :=
  ∀ entry ∈ docs, ∀ i, ∀ other ∈ underWay pool i, other.id env ≠ entry.id env

def HarmlessCall (pool : IndexerPool) : Call → Prop
  | .goesOn left =>
    (pool.shared.running = true ∧ pool.shared.stale = false) ∨
      ∀ message ∈ left.messages, mapped env left.partition.topic message = none
  | .push document partition offset =>
    batchSize ≤ pool.shared.batch.length + 1 →
      Apart env pool (pool.shared.batch ++ [pool.shared.entryOf document partition offset])
  | .take => Apart env pool pool.shared.batch
  | .bulk docs => pool.shared.down = false →
      ∀ entry ∈ docs, pool.shared.rejects entry.document = false
  | .deleteByQuery field id => pool.shared.down = false →
      ∀ entry, Waiting pool entry → finds env field id entry.document = false
  | _ => True

def Harmless (pool : IndexerPool) : Option IndexerLabel → Prop
  | none => ∀ entry, Waiting pool entry →
      pool.shared.position entry.partition ≤ entry.offset
  | some (.call i) => ∀ job c next, pool.workers i = some ⟨job, .call c next⟩ →
      HarmlessCall env batchSize pool c
  | some _ => True

def advance (left : Stretch) : Stretch := ⟨left.partition, left.offset + 1, left.messages.tail⟩

def finish (left : Stretch) : Stretch := ⟨left.partition, left.offset + left.messages.length, []⟩

/-- The messages that are left after the first is looked at: a message without a document is done
with at once. -/
def looked (left : Stretch) : Stretch :=
  match left.messages with
  | [] => left
  | message :: _ =>
    if (mapped env left.partition.topic message).isSome then left else advance left

structure Watch where
  /-- the batch of KafkaJS, and its messages that are left -/
  place : Option (Stretch × Stretch)
  /-- what was taken from the batch of documents -/
  held : List Entry
  /-- the deletes for the tombstone at hand -/
  deleted : List (Field × Json)

def Watch.idle : Watch := ⟨none, [], []⟩

def Watch.move (w : Watch) (f : Stretch → Stretch) : Watch :=
  { w with place := w.place.map fun place => (place.1, f place.2) }

def Watch.allows (w : Watch) : Call → Prop
  | .fetch => w = .idle
  | .goesOn left => w.held = [] ∧ ∃ batch, w.place = some (batch, left)
  | .push document partition offset => w.held = [] ∧ ∃ batch message rest,
      w.place = some (batch, ⟨partition, offset, message :: rest⟩) ∧
        mapped env partition.topic message = some document
  | .bulk docs => docs = w.held
  | .unshift docs => docs = w.held
  | .deleteByQuery _ _ => w.held = [] ∧ w.place.isSome
  | .processedTombstone activityId objectId => w.held = [] ∧ w.place.isSome ∧
      ∀ field id, Names activityId objectId field id → (field, id) ∈ w.deleted
  | .resolveOffset partition offset => w.held = [] ∧ ∃ batch left,
      w.place = some (batch, left) ∧ left.partition = partition ∧ left.offset = offset + 1
  | .returned batch => w.held = [] ∧ ∃ left, w.place = some (batch, left) ∧
      left.partition = batch.partition ∧ left.offset = batch.offset + batch.messages.length
  | _ => w.held = []

def Watch.after (w : Watch) : (c : Call) → Reply c → Watch
  | .fetch, batch => ⟨some (batch, batch), [], []⟩
  | .goesOn _, (goesOn : Bool) =>
    if goesOn then { w.move (looked env) with deleted := [] } else w.move finish
  | .push .., docs => ⟨(w.move advance).place, docs, []⟩
  | .take, docs => { w with held := docs }
  | .bulk _, (failed : Option (List Bool)) => if failed.isSome then { w with held := [] } else w
  | .unshift _, _ => { w with held := [] }
  | .deleteByQuery field id, (succeeded : Bool) =>
    if succeeded then { w with deleted := (field, id) :: w.deleted } else w
  | .returned _, _ => .idle
  | _, _ => w

def indexing : Monitor Call Reply Watch := ⟨Watch.allows env, Watch.after env⟩

def Rests (w : Watch) : Prop := w.held = [] ∧ w.place = none

variable {env}

theorem meets_send (docs : List Entry) (w : Watch) (holds : w.held = docs) :
    Meets (indexing env) (send docs) (Ends (fun _ _ => False) fun _ t => t = { w with held := [] })
      w := by
  unfold send
  split
  case isTrue empty =>
    subst empty
    rw [meets_pure]
    cases w
    cases holds
    rfl
  case isFalse =>
    refine ⟨holds.symm, fun failed => ?_⟩
    cases failed with
    | some failed => rfl
    | none => exact ⟨holds.symm, fun _ => rfl⟩

theorem meets_flush (w : Watch) (free : w.held = []) :
    Meets (indexing env) flush (Ends (fun _ _ => False) fun _ t => t = w) w := by
  refine ⟨free, fun docs => ?_⟩
  apply (meets_send docs { w with held := docs } rfl).imp
  intro t outcome ended
  cases outcome with
  | ok _ =>
    cases w
    cases free
    exact ended
  | error _ => exact ended

def At (place : Stretch × Stretch) (w : Watch) : Prop := w.place = some place ∧ w.held = []

theorem meets_deleteBy (field : Field) (id : Value) (place : Stretch × Stretch) (w : Watch)
    (here : At place w) :
    Meets (indexing env) (deleteBy field id) (Ends (fun _ => At place) fun _ t => At place t ∧
      w.deleted ⊆ t.deleted ∧ ∀ x, id = some x → truthy (some x) = true → (field, x) ∈ t.deleted)
      w := by
  unfold deleteBy
  cases id with
  | none => exact ⟨here, List.Subset.refl _, fun x is => nomatch is⟩
  | some id =>
    dsimp only
    split
    case isFalse falsy =>
      refine ⟨here, List.Subset.refl _, fun x is truth => ?_⟩
      cases is
      exact absurd truth falsy
    case isTrue truth =>
      refine ⟨⟨here.2, by rw [here.1]; rfl⟩, fun succeeded => ?_⟩
      cases succeeded with
      | false => exact here
      | true =>
        refine ⟨here, List.subset_cons_self _ _, fun x is _ => ?_⟩
        cases is
        exact List.mem_cons_self

theorem meets_handleTombstone (event : Json) (place : Stretch × Stretch) (w : Watch)
    (here : At place w) :
    Meets (indexing env) (handleTombstone event) (Ends (fun _ => At place) fun _ => At place) w := by
  refine ends_bind (meets_deleteBy _ _ place w here) fun _ t first => ?_
  refine ends_bind (meets_deleteBy _ _ place t first.1) fun _ u second => ?_
  refine ⟨⟨second.1.2, by rw [second.1.1]; rfl, fun field id names => ?_⟩, fun _ => second.1⟩
  obtain ⟨truth, named⟩ := names
  cases field with
  | activityId => exact second.2.1 (first.2.2 id named truth)
  | objectId => exact second.2.2 id named truth

theorem meets_resolve (partition : Partition) (offset : Nat) (batch : Stretch)
    (rest : List Message) (w : Watch) (here : At (batch, ⟨partition, offset + 1, rest⟩) w) :
    Meets (indexing env) (resolveOffset partition offset >>= fun _ => heartbeat)
      (Ends (fun _ => At (batch, ⟨partition, offset + 1, rest⟩))
        fun _ => At (batch, ⟨partition, offset + 1, rest⟩)) w := by
  refine ⟨⟨here.2, batch, _, here.1, rfl, rfl⟩, fun _ => ⟨here.2, fun succeeded => ?_⟩⟩
  cases succeeded with
  | true => exact here
  | false => exact here

variable {partition : Partition} {offset : Nat} {message : Message}

theorem looked_none
    {rest : List Message} (unmapped : mapped env partition.topic message = none) :
    looked env ⟨partition, offset, message :: rest⟩ = ⟨partition, offset + 1, rest⟩ := by
  simp [looked, unmapped, advance]

theorem meets_handleActivity (number offset : Nat) (message : Message) (event : Json)
    (batch : Stretch) (rest : List Message) (w : Watch) (read : eventOf env message = .ok (some event))
    (here : At (batch, looked env ⟨⟨.firehose, number⟩, offset, message :: rest⟩) w) :
    Meets (indexing env) (handleActivity env ⟨.firehose, number⟩ offset event)
      (Ends (fun _ => At (batch, ⟨⟨.firehose, number⟩, offset + 1, rest⟩))
        fun _ => At (batch, ⟨⟨.firehose, number⟩, offset + 1, rest⟩)) w := by
  unfold handleActivity
  cases made : documentOf env event with
  | error _ =>
    have unmapped : mapped env .firehose message = none := by
      simp [mapped, read, made, Except.toOption]
    rw [looked_none unmapped] at here
    exact here
  | ok document =>
    cases document with
    | none =>
      have unmapped : mapped env .firehose message = none := by
        simp [mapped, read, made, Except.toOption]
      rw [looked_none unmapped] at here
      exact here
    | some document =>
      have is : mapped env .firehose message = some document := by
        simp [mapped, read, made, Except.toOption]
      simp only [looked, is, Option.isSome_some, if_true] at here
      refine ⟨⟨here.2, batch, message, rest, here.1, is⟩, fun docs => ?_⟩
      apply (meets_send docs _ rfl).imp
      intro t outcome ended
      cases outcome with
      | ok _ =>
        cases ended
        refine ⟨?_, rfl⟩
        simp [indexing, Watch.after, Watch.move, here.1, advance]
      | error _ => exact ended.elim

theorem meets_handleEvent (partition : Partition) (offset : Nat) (message : Message) (event : Json)
    (batch : Stretch) (rest : List Message) (w : Watch) (read : eventOf env message = .ok (some event))
    (here : At (batch, looked env ⟨partition, offset, message :: rest⟩) w) :
    Meets (indexing env) (handleEvent env partition offset event)
      (Ends (fun _ => At (batch, ⟨partition, offset + 1, rest⟩))
        fun _ => At (batch, ⟨partition, offset + 1, rest⟩)) w := by
  obtain ⟨topic, number⟩ := partition
  cases topic with
  | tombstone =>
    rw [looked_none rfl] at here
    exact meets_handleTombstone event _ w here
  | firehose => exact meets_handleActivity number offset message event batch rest w read here

theorem meets_handleMessage (partition : Partition) (offset : Nat) (message : Message)
    (batch : Stretch) (rest : List Message) (w : Watch)
    (here : At (batch, looked env ⟨partition, offset, message :: rest⟩) w) :
    Meets (indexing env) (handleMessage env partition offset message)
      (Ends (fun _ => At (batch, ⟨partition, offset + 1, rest⟩))
        fun _ => At (batch, ⟨partition, offset + 1, rest⟩)) w := by
  unfold handleMessage
  cases read : eventOf env message with
  | error _ =>
    have unmapped : mapped env partition.topic message = none := by
      cases topic : partition.topic <;> simp [mapped, read]
    rw [looked_none unmapped] at here
    exact here
  | ok event =>
    cases event with
    | none =>
      have unmapped : mapped env partition.topic message = none := by
        cases topic : partition.topic <;> simp [mapped, read]
      rw [looked_none unmapped] at here
      exact here
    | some event =>
      have handled := meets_handleEvent partition offset message event batch rest w read here
      change Meets _ (handleEvent env partition offset event >>= fun _ =>
        resolveOffset partition offset >>= fun _ => heartbeat) _ _
      exact ends_bind handled fun _ t there => meets_resolve _ _ _ _ t there

theorem meets_processMessage (partition : Partition) (offset : Nat) (message : Message)
    (batch : Stretch) (rest : List Message) (w : Watch)
    (here : At (batch, looked env ⟨partition, offset, message :: rest⟩) w) :
    Meets (indexing env) (processMessage env partition offset message)
      (Ends (fun _ _ => False) fun _ => At (batch, ⟨partition, offset + 1, rest⟩)) w := by
  unfold processMessage
  rw [meets_rescue]
  apply (meets_handleMessage partition offset message batch rest w here).imp
  intro t outcome ended
  cases outcome with
  | ok _ => exact ended
  | error _ => exact ended

theorem meets_processMessages (partition : Partition) (batch : Stretch) (messages : List Message)
    (offset : Nat) (w : Watch) (here : At (batch, ⟨partition, offset, messages⟩) w) :
    Meets (indexing env) (processMessages env partition offset messages)
      (Ends (fun _ _ => False) fun _ => At (batch, ⟨partition, offset + messages.length, []⟩)) w := by
  induction messages generalizing offset w with
  | nil => exact here
  | cons message rest ih =>
    refine ⟨⟨here.2, batch, here.1⟩, fun goesOn => ?_⟩
    cases goesOn with
    | false =>
      refine ⟨?_, here.2⟩
      simp [indexing, Watch.after, Watch.move, here.1, finish]
    | true =>
      have looks : At (batch, looked env ⟨partition, offset, message :: rest⟩)
          ((indexing env).after w (.goesOn ⟨partition, offset, message :: rest⟩) true) := by
        refine ⟨?_, here.2⟩
        simp [indexing, Watch.after, Watch.move, here.1]
      change Meets _ (processMessage env partition offset message >>= fun _ =>
        processMessages env partition (offset + 1) rest) _ _
      refine ends_bind (meets_processMessage _ _ _ batch rest _ looks) fun _ t there => ?_
      apply (ih (offset + 1) t there).imp
      intro u outcome ended
      cases outcome with
      | ok _ =>
        have same : offset + 1 + rest.length = offset + (message :: rest).length := by
          simp only [List.length_cons]
          omega
        rw [same] at ended
        exact ended
      | error _ => exact ended

theorem obeys_job (job : Job) :
    ObeysTo (indexing env) Rests (job.program env) Watch.idle := by
  cases job with
  | eachBatch =>
    refine ⟨rfl, fun batch => ?_⟩
    change Meets _ (processBatch env batch >>= fun _ => returned batch) _ _
    have whole : At (batch, batch) ((indexing env).after Watch.idle .fetch batch) := ⟨rfl, rfl⟩
    rw [meets_bind]
    apply (meets_processMessages batch.partition batch batch.messages batch.offset _ whole).imp
    intro t outcome ended
    cases outcome with
    | ok _ => exact ⟨⟨ended.2, _, ended.1, rfl, rfl⟩, fun _ => ⟨rfl, rfl⟩⟩
    | error _ => exact ended.elim
  | timer =>
    apply (meets_flush Watch.idle rfl).imp
    intro t outcome ended
    cases outcome with
    | ok _ => exact ended ▸ ⟨rfl, rfl⟩
    | error _ => exact ended.elim
  | stop =>
    refine ⟨rfl, fun _ => ?_⟩
    change Meets _ (flush >>= fun _ => disconnect) _ _
    rw [meets_bind]
    apply (meets_flush Watch.idle rfl).imp
    intro t outcome ended
    cases outcome with
    | ok _ =>
      subst ended
      exact ⟨rfl, fun _ => ⟨rfl, rfl⟩⟩
    | error _ => exact ended.elim

variable (env)

def reading : Reading Entry ActivityDocument String Event (Partition × Nat) where
  content := Entry.document
  number := Entry.number
  key document := env.documentId document.activity_id
  wrote
    | .consumed entry => some entry
    | _ => none
  erases
    | .deleted field id, document => finds env field id document
    | _, _ => false
  origin entry := (entry.partition, entry.offset)

abbrev Duties := Nat → Option (Job × Watch)

def watchOf (duty : Option (Job × Watch)) : Watch := duty.elim .idle (·.2)

def buffer (s : Indexer) (duties : Duties) : Buffer Entry String Event :=
  ⟨s.index, s.batch, fun i => (watchOf (duties i)).held, s.events⟩

/-- The messages below this offset that map to a document were consumed, and no document of theirs is
lost. -/
def Settled (s : Indexer) (duties : Duties) (partition : Partition) (offset : Nat) : Prop :=
  ∀ o < offset,
    (∀ document, MapsTo env log partition o document →
      ∃ n entry, Consumed s n entry ∧ entry.partition = partition ∧ entry.offset = o) ∧
    ∀ n entry, Consumed s n entry → entry.partition = partition → entry.offset = o →
      Covered (reading env) (buffer s duties) entry

structure Placed (s : Indexer) (duties : Duties) (batch left : Stretch) : Prop where
  nonempty : batch.messages ≠ []
  next : ∃ rest, (log left.partition).drop left.offset = left.messages ++ rest
  settled : Settled env log s duties left.partition left.offset

structure Kept (s : Indexer) (duties : Duties) : Prop where
  documents : WriteBehind.Sound (reading env) (buffer s duties)
  maps : ∀ n entry, Consumed s n entry →
    MapsTo env log entry.partition entry.offset entry.document
  settled : ∀ partition, Settled env log s duties partition (s.position partition)
  one : ∀ i j, (watchOf (duties i)).place.isSome → (watchOf (duties j)).place.isSome → i = j
  busy : ∀ i, (watchOf (duties i)).place.isSome → s.fetched = true
  places : ∀ i batch left, (watchOf (duties i)).place = some (batch, left) →
    Placed env log s duties batch left
  deleted : ∀ i field id, (field, id) ∈ (watchOf (duties i)).deleted →
    (watchOf (duties i)).place.isSome ∧ ∃ k, s.events[k]? = some (.deleted field id) ∧
      ∀ n entry, k < n → ¬ Consumed s n entry
  tombstones : ∀ k activityId objectId, s.events[k]? = some (.tombstone activityId objectId) →
    ∀ n entry, n < k → Consumed s n entry → ∀ field id, Names activityId objectId field id →
      finds env field id entry.document = true → Since s n fun event => event = .deleted field id

variable {env log batchSize} {s s' : Indexer} {duties duties' : Duties}

theorem Settled.imp
    (settled : Settled env log s duties partition offset)
    (still : ∀ n entry, Consumed s n entry → Consumed s' n entry)
    (covered : ∀ n entry, Consumed s' n entry →
      (∃ m, Consumed s m entry ∧ Covered (reading env) (buffer s duties) entry) →
      Covered (reading env) (buffer s' duties') entry)
    (only : ∀ n entry, Consumed s' n entry → (∃ m, Consumed s m entry) ∨
      Covered (reading env) (buffer s' duties') entry) :
    Settled env log s' duties' partition offset := by
  intro o below
  obtain ⟨consumed, kept⟩ := settled o below
  refine ⟨fun document maps => ?_, fun n entry is there here => ?_⟩
  · obtain ⟨n, entry, is, there, here⟩ := consumed document maps
    exact ⟨n, entry, still n entry is, there, here⟩
  · obtain ⟨m, old⟩ | done := only n entry is
    · exact covered n entry is ⟨m, old, kept m entry old there here⟩
    · exact done

theorem Settled.congr
    (settled : Settled env log s duties partition offset) (events : s'.events = s.events)
    (same : buffer s' duties' = buffer s duties) :
    Settled env log s' duties' partition offset := by
  unfold Settled Consumed at settled ⊢
  rwa [events, same]

theorem watchOf_setDuty (i j : Nat) (duty : Option (Job × Watch)) :
    watchOf (setDuty duties i duty j) = if j = i then watchOf duty else watchOf (duties j) := by
  unfold setDuty
  split <;> rfl

theorem buffer_setDuty (i : Nat) (duty : Option (Job × Watch)) :
    buffer s (setDuty duties i duty) =
      { buffer s duties with
        flights := Function.update (buffer s duties).flights i (watchOf duty).held } := by
  simp only [buffer]
  congr 1
  funext j
  rw [watchOf_setDuty, Function.update_apply]
  split <;> rfl

theorem Kept.move (kept : Kept env log s duties) {i : Nat} {duty : Option (Job × Watch)}
    (index : s'.index = s.index) (batch : s'.batch = s.batch) (events : s'.events = s.events)
    (held : (watchOf duty).held = (watchOf (duties i)).held)
    (deleted : (watchOf duty).deleted ⊆ (watchOf (duties i)).deleted)
    (settled : ∀ partition, Settled env log s duties partition (s'.position partition))
    (one : (watchOf duty).place.isSome → ∀ j, j ≠ i → (watchOf (duties j)).place = none)
    (busy : ∀ j, (watchOf (setDuty duties i duty j)).place.isSome → s'.fetched = true)
    (places : ∀ batch left, (watchOf duty).place = some (batch, left) →
      Placed env log s duties batch left)
    (still : (watchOf duty).deleted ≠ [] → (watchOf duty).place.isSome) :
    Kept env log s' (setDuty duties i duty) := by
  have same : buffer s' (setDuty duties i duty) = buffer s duties := by
    rw [buffer_setDuty]
    simp only [buffer, index, batch, events, held]
    congr 1
    exact Function.update_eq_self i _
  have placed : ∀ batch left, Placed env log s duties batch left →
      Placed env log s' (setDuty duties i duty) batch left :=
    fun batch left is => ⟨is.nonempty, is.next, is.settled.congr events same⟩
  refine ⟨same ▸ kept.documents, ?_, fun partition => (settled partition).congr events same, ?_, busy,
    ?_, ?_, ?_⟩
  · unfold Consumed
    rw [events]
    exact kept.maps
  · intro j k first second
    rw [watchOf_setDuty] at first second
    split at first <;> split at second
    · omega
    · case _ other =>
      rw [one first k other] at second
      cases second
    · case _ other _ =>
      rw [one second j other] at first
      cases first
    · exact kept.one j k first second
  · intro j batch left is
    rw [watchOf_setDuty] at is
    split at is
    · exact placed _ _ (places batch left is)
    · exact placed _ _ (kept.places j batch left is)
  · intro j field id mem
    rw [watchOf_setDuty] at mem ⊢
    unfold Consumed
    rw [events]
    split at mem
    · case _ same =>
      subst same
      rw [if_pos rfl]
      exact ⟨still (List.ne_nil_of_mem mem), (kept.deleted j field id (deleted mem)).2⟩
    · case _ other =>
      rw [if_neg other]
      exact kept.deleted j field id mem
  · unfold Consumed Since
    rw [events]
    exact kept.tombstones

theorem consumed_append {event : Event} (events : s'.events = s.events ++ [event])
    (silent : ∀ entry, event ≠ .consumed entry) (n : Nat) (entry : Entry) :
    Consumed s' n entry ↔ Consumed s n entry := by
  unfold Consumed
  rw [events, List.getElem?_append]
  split
  · exact Iff.rfl
  · case _ beyond =>
    constructor
    · intro is
      have mem := List.mem_of_getElem? is
      rw [List.mem_singleton] at mem
      exact absurd mem.symm (silent entry)
    · intro is
      exact absurd (List.getElem?_eq_some_iff.1 is).1 beyond

theorem since_append {event : Event} (events : s'.events = s.events ++ [event]) {n : Nat}
    {P : Event → Prop} (since : Since s n P) : Since s' n P := by
  obtain ⟨k, e, after, is, holds⟩ := since
  refine ⟨k, e, after, ?_, holds⟩
  rw [events, List.getElem?_append_left (List.getElem?_eq_some_iff.1 is).1, is]

theorem Kept.handle (kept : Kept env log s duties) {i : Nat} {job : Job} {w : Watch}
    (position : s'.position = s.position) (fetched : s'.fetched = s.fetched)
    (events : s'.events = s.events ∨
      ∃ event, s'.events = s.events ++ [event] ∧ ∀ entry, event ≠ .consumed entry)
    (place : w.place = (watchOf (duties i)).place)
    (sound : WriteBehind.Sound (reading env) (buffer s' (setDuty duties i (some (job, w)))))
    (covered : ∀ n entry, Consumed s n entry → Covered (reading env) (buffer s duties) entry →
      Covered (reading env) (buffer s' (setDuty duties i (some (job, w)))) entry)
    (deleted : ∀ field id, (field, id) ∈ w.deleted → (field, id) ∈ (watchOf (duties i)).deleted ∨
      (w.place.isSome ∧ s'.events = s.events ++ [.deleted field id]))
    (tombstone : ∀ activityId objectId, s'.events = s.events ++ [.tombstone activityId objectId] →
      ∀ field id, Names activityId objectId field id → (field, id) ∈ (watchOf (duties i)).deleted) :
    Kept env log s' (setDuty duties i (some (job, w))) := by
  have same : ∀ n entry, Consumed s' n entry ↔ Consumed s n entry := by
    intro n entry
    obtain none | ⟨event, more, silent⟩ := events
    · unfold Consumed
      rw [none]
    · exact consumed_append more silent n entry
  have since : ∀ n (P : Event → Prop), Since s n P → Since s' n P := by
    intro n P earlier
    obtain none | ⟨event, more, -⟩ := events
    · unfold Since
      rw [none]
      exact earlier
    · exact since_append more earlier
  have settled : ∀ partition offset, Settled env log s duties partition offset →
      Settled env log s' (setDuty duties i (some (job, w))) partition offset := by
    intro partition offset before
    refine before.imp (fun n entry is => (same n entry).2 is) ?_ fun n entry is =>
      .inl ⟨n, (same n entry).1 is⟩
    rintro n entry - ⟨m, is, cover⟩
    exact covered m entry is cover
  have placeOf : ∀ j, (watchOf (setDuty duties i (some (job, w)) j)).place =
      (watchOf (duties j)).place := by
    intro j
    rw [watchOf_setDuty]
    split
    · case _ here => exact here ▸ place
    · rfl
  refine ⟨sound, fun n entry is => kept.maps n entry ((same n entry).1 is), ?_, ?_, ?_, ?_, ?_, ?_⟩
  · intro partition
    rw [position]
    exact settled _ _ (kept.settled partition)
  · intro j k
    rw [placeOf, placeOf]
    exact kept.one j k
  · intro j
    rw [placeOf, fetched]
    exact kept.busy j
  · intro j batch left is
    rw [placeOf] at is
    obtain ⟨nonempty, next, before⟩ := kept.places j batch left is
    exact ⟨nonempty, next, settled _ _ before⟩
  · intro j field id mem
    have old : ∀ l, (field, id) ∈ (watchOf (duties l)).deleted →
        (watchOf (duties l)).place.isSome ∧ ∃ k, s'.events[k]? = some (.deleted field id) ∧
          ∀ n entry, k < n → ¬ Consumed s' n entry := by
      intro l before
      obtain ⟨placed, k, is, last⟩ := kept.deleted l field id before
      refine ⟨placed, k, ?_, fun n entry after is => last n entry after ((same n entry).1 is)⟩
      obtain none | ⟨event, more, -⟩ := events
      · rw [none, is]
      · rw [more, List.getElem?_append_left (List.getElem?_eq_some_iff.1 is).1, is]
    rw [placeOf]
    rw [watchOf_setDuty] at mem
    split at mem
    · case _ here =>
      subst here
      obtain before | ⟨placed, more⟩ := deleted field id mem
      · exact old j before
      · refine ⟨place ▸ placed, s.events.length, by simp [more], fun n entry after is => ?_⟩
        have bound := (List.getElem?_eq_some_iff.1 is).1
        simp only [more, List.length_append, List.length_singleton] at bound
        omega
    · exact old j mem
  · intro k activityId objectId is n entry before consumed field id names finds
    rw [same] at consumed
    obtain none | ⟨event, more, -⟩ := events
    · rw [none] at is
      exact since _ _ (kept.tombstones k _ _ is n entry before consumed field id names finds)
    · rw [more, List.getElem?_append] at is
      split at is
      · exact since _ _ (kept.tombstones k _ _ is n entry before consumed field id names finds)
      · have mem := List.mem_of_getElem? is
        rw [List.mem_singleton] at mem
        subst mem
        obtain ⟨-, m, there, last⟩ := kept.deleted i field id (tombstone _ _ more field id names)
        refine since _ _ ⟨m, _, ?_, there, rfl⟩
        by_contra late
        obtain same | after := Nat.eq_or_lt_of_le (Nat.le_of_not_lt late)
        · subst same
          rw [consumed] at there
          cases there
        · exact last n entry after consumed

theorem not_mapsTo
    (here : (log partition)[offset]? = some message)
    (unmapped : mapped env partition.topic message = none) (document : ActivityDocument) :
    ¬ MapsTo env log partition offset document := by
  rintro ⟨other, there, maps⟩
  rw [here, Option.some_inj] at there
  rw [← there, unmapped] at maps
  cases maps

variable {batch left : Stretch}

theorem Kept.advance (kept : Kept env log s duties)
    {rest : List Message} (placed : Placed env log s duties batch left)
    (first : left.messages = message :: rest)
    (unmapped : mapped env left.partition.topic message = none) :
    Placed env log s duties batch (advance left) := by
  obtain ⟨nonempty, ⟨more, next⟩, settled⟩ := placed
  have here : (log left.partition)[left.offset]? = some message := by
    rw [← List.head?_drop, next, first]
    rfl
  refine ⟨nonempty, ⟨more, ?_⟩, fun o below => ?_⟩
  · simp only [ActivityIndex.advance, first, List.tail_cons]
    rw [← List.drop_drop, next, first]
    rfl
  · obtain earlier | last := Nat.lt_succ_iff_lt_or_eq.1 below
    · exact settled o earlier
    · subst last
      have none := not_mapsTo here unmapped
      refine ⟨fun document maps => absurd maps (none document), fun n entry is there at_ => ?_⟩
      have maps := kept.maps n entry is
      rw [there, at_] at maps
      exact absurd maps (none _)

theorem Kept.looked (kept : Kept env log s duties)
    (placed : Placed env log s duties batch left) :
    Placed env log s duties batch (looked env left) := by
  unfold ActivityIndex.looked
  split
  · exact placed
  · case _ message rest first =>
    split
    · exact placed
    · case _ unmapped =>
      exact kept.advance placed first (by simpa using unmapped)

theorem Kept.finish (kept : Kept env log s duties)
    (placed : Placed env log s duties batch left)
    (unmapped : ∀ message ∈ left.messages, mapped env left.partition.topic message = none) :
    Placed env log s duties batch (finish left) := by
  obtain ⟨partition, offset, messages⟩ := left
  induction messages generalizing offset with
  | nil => exact placed
  | cons message rest ih =>
    have later := kept.advance placed rfl (unmapped message List.mem_cons_self)
    have ended := ih (offset + 1) later fun other mem => unmapped other (List.mem_cons_of_mem _ mem)
    have same : offset + 1 + rest.length = offset + (message :: rest).length := by
      simp only [List.length_cons]
      omega
    simp only [ActivityIndex.finish, same] at ended ⊢
    exact ended

section
variable {i : Nat} {job : Job} {w : Watch}

theorem kept_fetch (kept : Kept env log s duties) (is : duties i = some (job, w))
    {batch : Stretch} (allowed : w.allows env .fetch)
    (performs : s.Performs env log batchSize .fetch batch s') :
    Kept env log s' (setDuty duties i (some (job, w.after env .fetch batch))) := by
  cases performs with
  | fetch idle running some_ next =>
    have free : ∀ j, (watchOf (duties j)).place = none := by
      intro j
      cases place : (watchOf (duties j)).place with
      | none => rfl
      | some _ =>
        have busy := kept.busy j (by simp [place])
        rw [idle] at busy
        cases busy
    have watched : watchOf (duties i) = .idle := by rw [is, ← allowed]; rfl
    refine kept.move rfl rfl rfl ?_ ?_ kept.settled (fun _ j _ => free j) (fun _ _ => rfl) ?_ ?_
    · rw [watched]
      rfl
    · exact List.nil_subset _
    · intro batch left place
      cases place
      exact ⟨some_, ⟨_, next⟩, kept.settled _⟩
    · exact fun none => absurd rfl none

theorem Kept.shift (kept : Kept env log s duties) (is : duties i = some (job, w)) {w' : Watch}
    (index : s'.index = s.index) (batch : s'.batch = s.batch) (events : s'.events = s.events)
    (fetched : s'.fetched = s.fetched) (held : w'.held = w.held) (deleted : w'.deleted ⊆ w.deleted)
    (settled : ∀ partition, Settled env log s duties partition (s'.position partition))
    (place : w'.place.isSome = w.place.isSome)
    (places : ∀ batch left, w'.place = some (batch, left) → Placed env log s duties batch left) :
    Kept env log s' (setDuty duties i (some (job, w'))) := by
  have watched : watchOf (duties i) = w := by rw [is]; rfl
  refine kept.move index batch events (by rw [watched]; exact held) (by rw [watched]; exact deleted)
    settled ?_ ?_ places ?_
  · intro here j other
    have here' : (watchOf (duties i)).place.isSome := by rw [watched, ← place]; exact here
    cases there : (watchOf (duties j)).place with
    | none => rfl
    | some _ => exact absurd (kept.one j i (by simp [there]) here') other
  · intro j there
    rw [fetched]
    rw [watchOf_setDuty] at there
    split at there
    · have here' : (watchOf (duties i)).place.isSome := by rw [watched, ← place]; exact there
      exact kept.busy i here'
    · exact kept.busy j there
  · intro some_
    obtain ⟨⟨field, id⟩, mem⟩ := List.exists_mem_of_ne_nil _ some_
    have old : (field, id) ∈ (watchOf (duties i)).deleted := by rw [watched]; exact deleted mem
    have here := (kept.deleted i field id old).1
    rw [watched, ← place] at here
    exact here

theorem Kept.same (kept : Kept env log s duties) (is : duties i = some (job, w))
    (index : s'.index = s.index) (batch : s'.batch = s.batch) (events : s'.events = s.events)
    (fetched : s'.fetched = s.fetched)
    (settled : ∀ partition, Settled env log s duties partition (s'.position partition)) :
    Kept env log s' (setDuty duties i (some (job, w))) := by
  refine kept.shift is index batch events fetched rfl (List.Subset.refl _) settled rfl ?_
  intro batch left place
  exact kept.places i batch left (by rw [is]; exact place)

theorem kept_goesOn (kept : Kept env log s duties) (is : duties i = some (job, w)) {left : Stretch}
    {reply : Bool} (allowed : w.allows env (.goesOn left))
    (harmless : (s.running = true ∧ s.stale = false) ∨
      ∀ message ∈ left.messages, mapped env left.partition.topic message = none)
    (performs : s.Performs env log batchSize (.goesOn left) reply s') :
    Kept env log s' (setDuty duties i (some (job, w.after env (.goesOn left) reply))) := by
  obtain ⟨free, batch, place⟩ := allowed
  have placed := kept.places i batch left (by rw [is]; exact place)
  cases performs
  cases on : s.running && !s.stale with
  | true =>
    have moved : w.after env (.goesOn left) true = { w.move (looked env) with deleted := [] } := rfl
    rw [moved]
    refine kept.shift is rfl rfl rfl rfl rfl (List.nil_subset _) kept.settled ?_ ?_
    · simp [Watch.move, place]
    · intro batch' left' place'
      simp only [Watch.move, place, Option.map_some, Option.some.injEq, Prod.mk.injEq] at place'
      obtain ⟨rfl, rfl⟩ := place'
      exact kept.looked placed
  | false =>
    have unmapped := harmless.resolve_left fun ⟨running, stale⟩ => by simp [running, stale] at on
    refine kept.shift is rfl rfl rfl rfl rfl (List.Subset.refl _) kept.settled ?_ ?_
    · simp [Watch.move, Watch.after, place]
    · intro batch' left' place'
      simp only [Watch.after, Watch.move, place, Bool.false_eq_true, if_false, Option.map_some,
        Option.some.injEq, Prod.mk.injEq] at place'
      obtain ⟨rfl, rfl⟩ := place'
      exact kept.finish placed unmapped

variable {partition : Partition} {offset : Nat}

theorem settled_resolve (kept : Kept env log s duties)
    (settled : Settled env log s duties partition (offset + 1)) (other : Partition) :
    Settled env log s duties other ((s.resolve partition offset).position other) := by
  simp only [Indexer.resolve]
  split
  · case _ same => exact same ▸ settled
  · exact kept.settled other

theorem kept_resolveOffset (kept : Kept env log s duties) (is : duties i = some (job, w))
    (allowed : w.allows env (.resolveOffset partition offset)) :
    Kept env log (s.resolve partition offset) (setDuty duties i (some (job, w))) := by
  obtain ⟨-, batch, left, place, rfl, next⟩ := allowed
  have placed := kept.places i batch left (by rw [is]; exact place)
  exact kept.same is rfl rfl rfl rfl (settled_resolve kept (next ▸ placed.settled))

theorem kept_returned (kept : Kept env log s duties) (is : duties i = some (job, w))
    {batch : Stretch} (allowed : w.allows env (.returned batch)) :
    Kept env log
      { s.resolve batch.partition (batch.offset + batch.messages.length - 1) with fetched := false }
      (setDuty duties i (some (job, .idle))) := by
  obtain ⟨free, left, place, there, next⟩ := allowed
  have watched : watchOf (duties i) = w := by rw [is]; rfl
  have placed := kept.places i batch left (by rw [watched]; exact place)
  have alone : ∀ j, j ≠ i → (watchOf (duties j)).place = none := by
    intro j other
    cases found : (watchOf (duties j)).place with
    | none => rfl
    | some _ => exact absurd (kept.one j i (by simp [found]) (by rw [watched, place]; rfl)) other
  have last : batch.offset + batch.messages.length - 1 + 1 = left.offset := by
    have some_ := List.length_pos_iff.2 placed.nonempty
    omega
  refine kept.move rfl rfl rfl ?_ (List.nil_subset _) ?_ ?_ ?_ ?_ fun none => absurd rfl none
  · rw [watched, free]
    rfl
  · exact settled_resolve kept (by rw [last, ← there]; exact placed.settled)
  · exact fun here => nomatch here
  · intro j here
    rw [watchOf_setDuty] at here
    split at here
    · cases here
    · case _ other =>
      rw [alone j other] at here
      cases here
  · exact fun _ _ none => nomatch none

variable {pool : IndexerPool}

theorem underWay_eq
    (matched : ∀ j, Matches (indexing env) Rests (duties j) (pool.workers j)) (j : Nat) :
    underWay pool j = (watchOf (duties j)).held := by
  have here := matched j
  unfold underWay
  cases worker : pool.workers j with
  | none =>
    rw [worker] at here
    have idle : duties j = none := here
    rw [idle]
    rfl
  | some worker' =>
    rw [worker] at here
    obtain ⟨t, duty, obeys⟩ := here
    rw [duty]
    obtain ⟨tag, program⟩ := worker'
    change sending program = t.held
    cases program with
    | done outcome => exact obeys.1.symm
    | call c next =>
      have allowed : t.allows env c := obeys.1
      cases c with
      | bulk docs => exact allowed
      | unshift docs => exact allowed
      | fetch =>
        cases allowed
        rfl
      | goesOn left => exact allowed.1.symm
      | push document partition offset => exact allowed.1.symm
      | take => exact Eq.symm allowed
      | deleteByQuery field id => exact allowed.1.symm
      | processedTombstone activityId objectId => exact allowed.1.symm
      | resolveOffset partition offset => exact allowed.1.symm
      | heartbeat => exact Eq.symm allowed
      | returned batch => exact allowed.1.symm
      | clearInterval => exact Eq.symm allowed
      | disconnect => exact Eq.symm allowed

theorem waiting_iff
    (matched : ∀ j, Matches (indexing env) Rests (duties j) (pool.workers j)) (entry : Entry) :
    Waiting pool entry ↔ (buffer pool.shared duties).Waits entry := by
  unfold Waiting Buffer.Waits
  simp only [underWay_eq matched]
  rfl

theorem indexed_eq (rejects : ActivityDocument → Bool) (docs : List Entry)
    (accepted : ∀ entry ∈ docs, rejects entry.document = false) (index : String → Option Entry) :
    indexed env rejects index docs = (reading env).landed index docs := by
  induction docs generalizing index with
  | nil => rfl
  | cons entry docs ih =>
    have first := accepted entry List.mem_cons_self
    have later := ih fun other mem => accepted other (List.mem_cons_of_mem _ mem)
    unfold indexed Reading.landed at later ⊢
    rw [List.foldl_cons, List.foldl_cons, if_neg (by simp [first]), later]
    rfl

theorem kept_take (kept : Kept env log s duties) (is : duties i = some (job, w)) (free : w.held = [])
    (apart : ∀ entry ∈ s.batch, ∀ j, ∀ other ∈ (watchOf (duties j)).held,
      other.id env ≠ entry.id env) :
    Kept env log { s with batch := [] } (setDuty duties i (some (job, { w with held := s.batch }))) := by
  have watched : watchOf (duties i) = w := by rw [is]; rfl
  have empty : (buffer s duties).flights i = [] := by simp only [buffer, watched, free]
  have same : buffer { s with batch := [] } (setDuty duties i (some (job, { w with held := s.batch }))) =
      (buffer s duties).take i := buffer_setDuty i _
  refine kept.handle rfl rfl (.inl rfl) (by rw [watched]) ?_ ?_ ?_ ?_
  · rw [same]
    exact kept.documents.take empty apart
  · intro n entry consumed covered
    rw [same]
    exact covered.take empty
  · intro field id mem
    exact .inl (by rw [watched]; exact mem)
  · intro activityId objectId more
    simp at more

theorem kept_bulk (kept : Kept env log s duties) (is : duties i = some (job, w))
    (accepted : ∀ entry ∈ w.held, s.rejects entry.document = false) :
    Kept env log { s with index := indexed env s.rejects s.index w.held }
      (setDuty duties i (some (job, { w with held := [] }))) := by
  have watched : watchOf (duties i) = w := by rw [is]; rfl
  have same : buffer { s with index := indexed env s.rejects s.index w.held }
      (setDuty duties i (some (job, { w with held := [] }))) = (reading env).land (buffer s duties) i := by
    rw [buffer_setDuty, indexed_eq _ _ accepted]
    simp only [Reading.land, buffer, watched]
    rfl
  refine kept.handle rfl rfl (.inl rfl) (by rw [watched]) ?_ ?_ ?_ ?_
  · rw [same]
    exact kept.documents.land i
  · intro n entry consumed covered
    rw [same]
    have number := kept.documents.numbered n _ entry consumed rfl
    exact kept.documents.covered_land ⟨_, number ▸ consumed, rfl⟩ covered i
  · intro field id mem
    exact .inl (by rw [watched]; exact mem)
  · intro activityId objectId more
    simp at more

theorem kept_unshift (kept : Kept env log s duties) (is : duties i = some (job, w)) :
    Kept env log { s with batch := w.held ++ s.batch }
      (setDuty duties i (some (job, { w with held := [] }))) := by
  have watched : watchOf (duties i) = w := by rw [is]; rfl
  have same : buffer { s with batch := w.held ++ s.batch }
      (setDuty duties i (some (job, { w with held := [] }))) = (buffer s duties).unshift i := by
    rw [buffer_setDuty]
    simp only [Buffer.unshift, buffer, watched]
    rfl
  refine kept.handle rfl rfl (.inl rfl) (by rw [watched]) ?_ ?_ ?_ ?_
  · rw [same]
    exact kept.documents.unshift i
  · intro n entry consumed covered
    rw [same]
    exact covered.unshift i
  · intro field id mem
    exact .inl (by rw [watched]; exact mem)
  · intro activityId objectId more
    simp at more

theorem kept_delete (kept : Kept env log s duties) (is : duties i = some (job, w)) {field : Field}
    {id : Json} (allowed : w.allows env (.deleteByQuery field id))
    (nothing : ∀ entry, (buffer s duties).Waits entry → finds env field id entry.document = false) :
    Kept env log
      { s with
        index := fun key => (s.index key).filter fun entry => !finds env field id entry.document
        events := s.events ++ [.deleted field id] }
      (setDuty duties i (some (job, { w with deleted := (field, id) :: w.deleted }))) := by
  obtain ⟨free, placed⟩ := allowed
  have watched : watchOf (duties i) = w := by rw [is]; rfl
  have same : buffer { s with
        index := fun key => (s.index key).filter fun entry => !finds env field id entry.document
        events := s.events ++ [.deleted field id] }
      (setDuty duties i (some (job, { w with deleted := (field, id) :: w.deleted }))) =
        (reading env).erase (buffer s duties) (.deleted field id) := by
    rw [buffer_setDuty]
    have held : (watchOf (some (job, { w with deleted := (field, id) :: w.deleted }))).held =
      (buffer s duties).flights i := by
      simp only [buffer, watched]
      rfl
    rw [held]
    simp only [Reading.erase, buffer, Function.update_eq_self]
    rfl
  refine kept.handle rfl rfl (.inr ⟨_, rfl, by simp⟩) (by rw [watched]) ?_ ?_ ?_ ?_
  · rw [same]
    exact kept.documents.erase rfl nothing
  · intro n entry consumed covered
    rw [same]
    have number := kept.documents.numbered n _ entry consumed rfl
    exact covered.erase ⟨_, number ▸ consumed, rfl⟩ _
  · intro other x mem
    rw [watched]
    obtain here | old := List.mem_cons.1 mem
    · cases here
      exact .inr ⟨placed, rfl⟩
    · exact .inl old
  · intro activityId objectId more
    simp at more

theorem kept_processedTombstone (kept : Kept env log s duties) (is : duties i = some (job, w))
    {activityId objectId : Value} (allowed : w.allows env (.processedTombstone activityId objectId)) :
    Kept env log { s with events := s.events ++ [.tombstone activityId objectId] }
      (setDuty duties i (some (job, w))) := by
  obtain ⟨free, placed, deleted⟩ := allowed
  have watched : watchOf (duties i) = w := by rw [is]; rfl
  have same : buffer { s with events := s.events ++ [.tombstone activityId objectId] }
      (setDuty duties i (some (job, w))) =
        (buffer s duties).note (.tombstone activityId objectId) := by
    rw [← is, setDuty_self]
    rfl
  refine kept.handle rfl rfl (.inr ⟨_, rfl, by simp⟩) (by rw [watched]) ?_ ?_ ?_ ?_
  · rw [same]
    exact kept.documents.note rfl fun _ _ => rfl
  · intro n entry consumed covered
    rw [same]
    exact covered.note _
  · intro field id mem
    exact .inl (by rw [watched]; exact mem)
  · intro activityId' objectId' more field id names
    rw [watched]
    simp only [List.append_cancel_left_eq, List.cons.injEq, Event.tombstone.injEq, and_true] at more
    obtain ⟨rfl, rfl⟩ := more
    exact deleted field id names

def grown (s : Indexer) (entry : Entry) : Indexer :=
  { s with batch := s.batch ++ [entry], events := s.events ++ [.consumed entry] }

theorem consumed_grown {entry : Entry} {n : Nat} {other : Entry} :
    Consumed (grown s entry) n other ↔
      Consumed s n other ∨ (n = s.events.length ∧ other = entry) := by
  unfold Consumed
  simp only [grown, List.getElem?_append]
  split
  · case _ old =>
    constructor
    · exact .inl
    · rintro (is | ⟨last, -⟩)
      · exact is
      · omega
  · case _ beyond =>
    constructor
    · intro is
      have bound := (List.getElem?_eq_some_iff.1 is).1
      have mem := List.mem_of_getElem? is
      simp only [List.length_singleton] at bound
      simp only [List.mem_singleton, Event.consumed.injEq] at mem
      exact .inr ⟨by omega, mem⟩
    · rintro (is | ⟨rfl, rfl⟩)
      · exact absurd (List.getElem?_eq_some_iff.1 is).1 beyond
      · simp

theorem Kept.lt_length (kept : Kept env log s duties) {n : Nat} {entry : Entry}
    (consumed : Consumed s n entry) : entry.number = n ∧ n < s.events.length :=
  ⟨kept.documents.numbered n _ entry consumed rfl, (List.getElem?_eq_some_iff.1 consumed).1⟩

theorem mapsTo_unique {first second : ActivityDocument}
    (one : MapsTo env log partition offset first) (other : MapsTo env log partition offset second) :
    first = second := by
  obtain ⟨message, is, maps⟩ := one
  obtain ⟨message', is', maps'⟩ := other
  rw [is, Option.some_inj] at is'
  rw [← is', maps, Option.some_inj] at maps'
  exact maps'

theorem kept_grown (kept : Kept env log s duties) (is : duties i = some (job, w))
    {document : ActivityDocument}
    (allowed : w.allows env (.push document partition offset)) :
    Kept env log (grown s (s.entryOf document partition offset))
      (setDuty duties i (some (job, ⟨(w.move advance).place, [], []⟩))) := by
  obtain ⟨free, batch, message, rest, place, maps⟩ := allowed
  have watched : watchOf (duties i) = w := by rw [is]; rfl
  have placed := kept.places i _ _ (by rw [watched]; exact place)
  have here : (log partition)[offset]? = some message := by
    obtain ⟨more, next⟩ := placed.next
    rw [← List.head?_drop, next]
    rfl
  have mapsTo : MapsTo env log partition offset document := ⟨message, here, maps⟩
  let entry := s.entryOf document partition offset
  let w' : Watch := ⟨(w.move advance).place, [], []⟩
  let duties' := setDuty duties i (some (job, w'))
  have same : buffer (grown s entry) duties' = (buffer s duties).push entry (.consumed entry) := by
    have held : (watchOf (some (job, w'))).held = (buffer s duties).flights i := by
      simp only [buffer, watched, free]
      rfl
    rw [buffer_setDuty, held]
    simp only [Buffer.push, buffer, Function.update_eq_self]
    rfl
  have pushed : ∀ other : Entry, other.partition = partition → other.offset = offset →
      other.document = document → other.number ≤ entry.number →
      Covered (reading env) (buffer (grown s entry) duties') other := by
    intro other there at_ content before
    rw [same]
    refine covered_push ?_ content.symm before
    simp only [reading, entry, Indexer.entryOf, there, at_]
  have settled : ∀ other below, Settled env log s duties other below →
      Settled env log (grown s entry) duties' other below := by
    intro other below before
    refine before.imp (fun n x old => consumed_grown.2 (.inl old)) ?_ ?_
    · rintro n x - ⟨m, -, cover⟩
      rw [same]
      exact cover.push
    · intro n x now
      obtain old | ⟨-, rfl⟩ := consumed_grown.1 now
      · exact .inl ⟨n, old⟩
      · exact .inr (pushed _ rfl rfl rfl (Nat.le_refl _))
  have placeOf : ∀ j, (watchOf (duties' j)).place.isSome = (watchOf (duties j)).place.isSome := by
    intro j
    rw [watchOf_setDuty]
    split
    · case _ here =>
      rw [here, watched, place]
      change w'.place.isSome = true
      simp [w', Watch.move, place]
    · rfl
  have alone : ∀ j, j ≠ i → (watchOf (duties j)).place = none := by
    intro j other
    cases found : (watchOf (duties j)).place with
    | none => rfl
    | some _ => exact absurd (kept.one j i (by simp [found]) (by rw [watched, place]; rfl)) other
  refine ⟨?_, ?_, fun p => settled _ _ (kept.settled p), ?_, ?_, ?_, ?_, ?_⟩
  · rw [same]
    exact kept.documents.push rfl rfl fun _ => rfl
  · intro n x now
    obtain old | ⟨-, rfl⟩ := consumed_grown.1 now
    · exact kept.maps n x old
    · exact mapsTo
  · intro j k
    rw [placeOf, placeOf]
    exact kept.one j k
  · intro j
    rw [placeOf]
    exact kept.busy j
  · intro j batch' left' place'
    rw [watchOf_setDuty] at place'
    split at place'
    · have moved : w'.place = some (batch, ⟨partition, offset + 1, rest⟩) := by
        simp [w', Watch.move, place, advance]
      change w'.place = _ at place'
      rw [moved] at place'
      cases place'
      obtain ⟨nonempty, ⟨more, next⟩, before⟩ := placed
      refine ⟨nonempty, ⟨more, ?_⟩, fun o below => ?_⟩
      · simp only at next ⊢
        rw [← List.drop_drop, next]
        rfl
      · obtain earlier | last := Nat.lt_succ_iff_lt_or_eq.1 below
        · exact settled _ _ before o earlier
        · refine ⟨fun _ _ => ⟨s.events.length, entry, consumed_grown.2 (.inr ⟨rfl, rfl⟩), rfl,
            last.symm⟩, fun n x now there at_ => ?_⟩
          obtain old | ⟨-, rfl⟩ := consumed_grown.1 now
          · have from_ := kept.maps n x old
            rw [there, at_, last] at from_
            obtain ⟨number, earlier⟩ := kept.lt_length old
            exact pushed x there (at_.trans last) (mapsTo_unique from_ mapsTo)
              (number.trans_le (Nat.le_of_lt earlier))
          · exact pushed _ rfl rfl rfl (Nat.le_refl _)
    · case _ other =>
      rw [alone j other] at place'
      cases place'
  · intro j field id mem
    rw [watchOf_setDuty] at mem
    split at mem
    · cases mem
    · case _ other =>
      have there := (kept.deleted j field id mem).1
      rw [alone j other] at there
      cases there
  · intro k activityId objectId tombstone n x before now field id names finds
    simp only [grown, List.getElem?_append] at tombstone
    split at tombstone
    · case _ old =>
      obtain earlier | ⟨last, -⟩ := consumed_grown.1 now
      · exact since_append rfl
          (kept.tombstones k _ _ tombstone n x before earlier field id names finds)
      · omega
    · have mem := List.mem_of_getElem? tombstone
      simp at mem

theorem setDuty_setDuty (first second : Option (Job × Watch)) :
    setDuty (setDuty duties i first) i second = setDuty duties i second := by
  funext j
  simp only [setDuty]
  split <;> rfl

theorem kept_push (kept : Kept env log s duties) (is : duties i = some (job, w))
    {document : ActivityDocument} {docs : List Entry}
    (allowed : w.allows env (.push document partition offset))
    (apart : batchSize ≤ s.batch.length + 1 →
      ∀ entry ∈ s.batch ++ [s.entryOf document partition offset], ∀ j,
        ∀ other ∈ (watchOf (duties j)).held, other.id env ≠ entry.id env)
    (performs : s.Performs env log batchSize (.push document partition offset) docs s') :
    Kept env log s'
      (setDuty duties i (some (job, w.after env (.push document partition offset) docs))) := by
  have stage := kept_grown kept is allowed
  cases performs
  simp only [Indexer.pushed, List.length_append, List.length_singleton]
  split
  · case _ full =>
    have here : setDuty duties i (some (job, ⟨(w.move advance).place, [], []⟩)) i =
        some (job, (⟨(w.move advance).place, [], []⟩ : Watch)) := by simp [setDuty]
    have taken := kept_take stage here rfl fun entry mem j other held => by
      rw [watchOf_setDuty] at held
      split at held
      · cases held
      · exact apart full entry mem j other held
    rw [setDuty_setDuty] at taken
    exact taken
  · exact stage

theorem kept_call (kept : Kept env log s duties) (is : duties i = some (job, w)) {c : Call}
    {reply : Reply c} (shared : pool.shared = s)
    (matched : ∀ j, Matches (indexing env) Rests (duties j) (pool.workers j))
    (allowed : w.allows env c) (harmless : HarmlessCall env batchSize pool c)
    (performs : s.Performs env log batchSize c reply s') :
    Kept env log s' (setDuty duties i (some (job, w.after env c reply))) := by
  subst shared
  cases c with
  | fetch => exact kept_fetch kept is allowed performs
  | goesOn left => exact kept_goesOn kept is allowed harmless performs
  | push document partition offset =>
    refine kept_push kept is allowed (fun full entry mem j other held => ?_) performs
    rw [← underWay_eq matched] at held
    exact harmless full entry mem j other held
  | take =>
    cases performs
    refine kept_take kept is allowed fun entry mem j other held => ?_
    rw [← underWay_eq matched] at held
    exact harmless entry mem j other held
  | bulk docs =>
    cases performs with
    | bulk up =>
      have mine : docs = w.held := allowed
      subst mine
      exact kept_bulk kept is (harmless up)
    | bulkFailed down => exact kept.same is rfl rfl rfl rfl kept.settled
  | unshift docs =>
    have mine : docs = w.held := allowed
    subst mine
    cases performs
    exact kept_unshift kept is
  | deleteByQuery field id =>
    cases performs with
    | deleteByQuery up =>
      refine kept_delete kept is allowed fun entry waits => ?_
      exact harmless up entry ((waiting_iff matched entry).2 waits)
    | deleteFailed down => exact kept.same is rfl rfl rfl rfl kept.settled
  | processedTombstone activityId objectId =>
    cases performs
    exact kept_processedTombstone kept is allowed
  | resolveOffset partition offset =>
    cases performs
    exact kept_resolveOffset kept is allowed
  | heartbeat =>
    cases performs
    exact kept.same is rfl rfl rfl rfl kept.settled
  | returned batch =>
    cases performs
    exact kept_returned kept is allowed
  | clearInterval =>
    cases performs
    exact kept.same is rfl rfl rfl rfl kept.settled
  | disconnect =>
    cases performs
    exact kept.same is rfl rfl rfl rfl kept.settled

theorem Kept.rest (kept : Kept env log s duties) {duty : Option (Job × Watch)}
    (was : (watchOf (duties i)).held = []) (now : watchOf duty = .idle) :
    Kept env log s (setDuty duties i duty) := by
  have idle : (watchOf duty).place = none := by rw [now]; rfl
  refine kept.move rfl rfl rfl (by rw [now, was]; rfl) (by rw [now]; exact List.nil_subset _)
    kept.settled (fun some_ => ?_) ?_ (fun _ _ is => ?_) (fun some_ => ?_)
  · rw [idle] at some_
    cases some_
  · intro j here
    rw [watchOf_setDuty] at here
    split at here
    · rw [idle] at here
      cases here
    · exact kept.busy j here
  · rw [idle] at is
    cases is
  · rw [now] at some_
    exact absurd rfl some_

end

def Guard (env : Environment) (batchSize : Nat) (pool : IndexerPool) (label : IndexerLabel) : Prop :=
  Harmless env batchSize pool (some label) ∧ ∀ i, label = .stop i → Ended pool i

theorem preserves :
    PreservesAll (indexerSystem env log batchSize) (Guard env batchSize) (indexing env) Rests
      (Kept env log) where
  call pool duties i job w c next reply after harmless kept matched running duty allowed performs :=
    kept_call kept duty rfl matched allowed (harmless.1 job c next running) performs
  stop pool duties i harmless kept matched := by
    have ended := harmless.2 i rfl
    refine kept.rest ?_ rfl
    cases worker : pool.workers i with
    | none =>
      rw [worker] at matched
      have idle : duties i = none := matched
      rw [idle]
      rfl
    | some worker' =>
      rw [worker] at matched
      obtain ⟨t, duty, obeys⟩ := matched
      obtain ⟨outcome, done⟩ := ended worker' worker
      rw [done] at obeys
      rw [duty]
      exact obeys.1
  start pool duties i worker _ kept free starts := by
    obtain ⟨program, -⟩ := starts
    refine ⟨.idle, ?_, kept.rest (by rw [free]; rfl) rfl⟩
    rw [program]
    exact obeys_job worker.tag
  act pool duties act after _ kept acts := by
    have same : ∀ s' : Indexer, s'.index = pool.shared.index → s'.batch = pool.shared.batch →
        s'.events = pool.shared.events → s'.position = pool.shared.position →
        s'.fetched = pool.shared.fetched → Kept env log s' duties := by
      intro s' index batch events position fetched
      rw [← setDuty_self duties 0]
      refine kept.move index batch events rfl (List.Subset.refl _) ?_ ?_ ?_ (kept.places 0) ?_
      · rw [position]
        exact kept.settled
      · intro here j other
        cases there : (watchOf (duties j)).place with
        | none => rfl
        | some _ => exact absurd (kept.one j 0 (by simp [there]) here) other
      · intro j here
        rw [setDuty_self] at here
        rw [fetched]
        exact kept.busy j here
      · intro some_
        obtain ⟨⟨field, id⟩, mem⟩ := List.exists_mem_of_ne_nil _ some_
        exact (kept.deleted 0 field id mem).1
    cases act with
    | stale stale =>
      have is : after = { pool.shared with stale := stale } := acts
      subst is
      exact same _ rfl rfl rfl rfl rfl
    | cluster down rejects =>
      have is : after = { pool.shared with down := down, rejects := rejects } := acts
      subst is
      exact same _ rfl rfl rfl rfl rfl

theorem kept_restarted (kept : Kept env log s duties)
    (safe : ∀ entry, (buffer s duties).Waits entry → s.position entry.partition ≤ entry.offset) :
    Kept env log s.restarted fun _ => none where
  documents := kept.documents.lose
  maps := kept.maps
  settled partition o below := by
    obtain ⟨consumed, covered⟩ := kept.settled partition o below
    refine ⟨consumed, fun n entry is there at_ => ?_⟩
    refine (covered n entry is there at_).lose fun x waits origin => ?_
    have late := safe x waits
    simp only [reading, Prod.mk.injEq] at origin
    rw [origin.1, origin.2, there, at_] at late
    exact absurd below (Nat.not_lt.2 late)
  one _ _ here := nomatch here
  busy _ here := nomatch here
  places _ _ _ here := nomatch here
  deleted _ _ _ mem := nomatch mem
  tombstones := kept.tombstones

theorem kept_initial : Kept env log .initial fun _ => none where
  documents :=
    { numbered := fun _ _ _ is => nomatch is
      logged := fun e held => by
        obtain (mem | ⟨_, mem⟩) | ⟨_, is⟩ := held
        · cases mem
        · cases mem
        · cases is
      live := fun e held later => by
        obtain ⟨_, _, _, is, _⟩ := later
        cases is
      keyed := fun _ _ is => nomatch is
      queue := List.Pairwise.nil
      flights := fun _ => List.Pairwise.nil
      ahead := fun _ _ mem => nomatch mem
      apart := fun _ _ _ _ mem => nomatch mem
      first := fun _ _ is => nomatch is }
  maps _ _ is := nomatch is
  settled _ o below := absurd below (Nat.not_lt_zero o)
  one _ _ here := nomatch here
  busy _ here := nomatch here
  places _ _ _ here := nomatch here
  deleted _ _ _ mem := nomatch mem
  tombstones _ _ _ is := nomatch is

theorem watched_of_run {pool : IndexerPool}
    (run : Reaches (IndexerStep env log batchSize) (Harmless env batchSize) (Pool.idle .initial) pool) :
    WatchedTo (indexing env) Rests (Kept env log) pool := by
  apply run.invariant (I := WatchedTo (indexing env) Rests (Kept env log))
  · intro pool label after watched harmless step
    cases step with
    | process step ended =>
      exact watchedAll_step preserves ⟨harmless, ended⟩ step watched
    | crash =>
      obtain ⟨duties, kept, matched⟩ := watched
      refine watchedTo_idle (kept_restarted kept fun entry waits => ?_)
      exact harmless entry ((waiting_iff matched entry).2 waits)
  · exact watchedTo_idle kept_initial

/-- Where every step is harmless, the index is faithful in every state that is reached. -/
theorem index_faithful (env : Environment) (log : Partition → List Message) (batchSize : Nat)
    (pool : IndexerPool)
    (run : Reaches (IndexerStep env log batchSize) (Harmless env batchSize) (Pool.idle .initial)
      pool) :
    Faithful env log pool := by
  obtain ⟨duties, kept, matched⟩ := watched_of_run run
  constructor
  · intro flushed partition offset document below maps
    obtain ⟨consumed, covered⟩ := kept.settled partition offset below
    refine ⟨consumed document maps, fun n entry is there at_ => ?_⟩
    have number := (kept.lt_length is).1
    obtain deleted | replaced | ⟨stored, found, content, -⟩ := covered n entry is there at_
    · obtain ⟨k, event, after, here, finds⟩ := deleted
      refine .inl ⟨k, event, number ▸ after, here, ?_⟩
      cases event with
      | deleted field id => exact ⟨field, id, rfl, finds⟩
      | consumed other => cases finds
      | tombstone activityId objectId => cases finds
    · obtain ⟨k, event, after, here, other, wrote, key, differs⟩ := replaced
      refine .inr (.inl ⟨k, event, number ▸ after, here, other, ?_, key, differs⟩)
      cases event with
      | consumed entry' =>
        cases wrote
        rfl
      | deleted field id => cases wrote
      | tombstone activityId objectId => cases wrote
    · obtain ⟨waits, -⟩ | stays := found
      · exact absurd ((waiting_iff matched stored).2 waits) (flushed.2 stored)
      · exact .inr (.inr ⟨stored, stays, content⟩)
  · intro k activityId objectId tombstone n entry before consumed field id names finds key stored
    obtain ⟨m, event, after, here, is⟩ :=
      kept.tombstones k _ _ tombstone n entry before consumed field id names finds
    subst is
    have number := (kept.lt_length consumed).1
    exact kept.documents.live entry (.inr ⟨key, stored⟩) ⟨m, _, number.trans_lt after, here, finds⟩

end

theorem reaches_process {env : Environment} {log : Partition → List Message} {batchSize : Nat}
    {guard : IndexerPool → Option IndexerLabel → Prop} {pool after : IndexerPool}
    (run : Reaches (Step (indexerSystem env log batchSize))
      (fun pool label => guard pool (some label) ∧ ∀ i, label ≠ .stop i) pool after) :
    Reaches (IndexerStep env log batchSize) guard pool after := by
  induction run with
  | refl => exact .refl
  | tail _ last before =>
    obtain ⟨label, ⟨admitted, going⟩, step⟩ := last
    exact before.tail admitted (.process step fun i stops => absurd stops (going i))

def plain : Environment where
  toLowerCase text := text
  toISOString _ := some "2026-01-01T00:00:00.000Z"
  parse text := if text = "create" then
      some (.obj [("activity", .obj [("id", .str "a1"), ("type", .str "Create")])])
    else none
  documentId
    | .str text => text
    | _ => ""
  term
    | some (.str text), .str id => text = id
    | _, _ => false

def oneMessage (partition : Partition) : List Message :=
  if partition = ⟨.firehose, 0⟩ then [some "create"] else []

def undisturbed : Schedule Indexer Job Act Call Reply String Unit where
  perform _ c s := match c with
    | .fetch =>
      match s.fetched, s.running, (oneMessage ⟨.firehose, 0⟩).drop (s.position ⟨.firehose, 0⟩) with
      | false, true, message :: _ =>
        some (⟨⟨.firehose, 0⟩, s.position ⟨.firehose, 0⟩, [message]⟩, { s with fetched := true })
      | _, _, _ => none
    | .goesOn _ => some (s.running && !s.stale, s)
    | .push document partition offset =>
      let entry := s.entryOf document partition offset
      some ((s.pushed 500 entry).2,
        { s with batch := (s.pushed 500 entry).1, events := s.events ++ [.consumed entry] })
    | .take => some (s.batch, { s with batch := [] })
    | .bulk docs =>
      if s.down then none
      else some (some (docs.map fun entry => s.rejects entry.document),
        { s with index := indexed plain s.rejects s.index docs })
    | .resolveOffset partition offset => some ((), s.resolve partition offset)
    | .heartbeat => some (true, s)
    | .returned batch => some ((),
        { s.resolve batch.partition (batch.offset + batch.messages.length - 1) with fetched := false })
    | _ => none
  boot job := job.program plain
  admits s job := job ≠ .timer || s.timer
  react _ _ := none

theorem undisturbed_follows : undisturbed.Follows (indexerSystem plain oneMessage 500) where
  perform job c s reply after done := by
    cases c with
    | fetch =>
      simp only [undisturbed] at done
      split at done
      next message rest idle running next =>
        cases done
        exact .fetch idle running (by simp) next
      next => nomatch done
    | goesOn left =>
      cases done
      exact .goesOn
    | push document partition offset =>
      cases done
      exact .push
    | take =>
      cases done
      exact .take
    | bulk docs =>
      simp only [undisturbed] at done
      split at done
      next => nomatch done
      next up =>
        cases done
        exact .bulk (by simpa using up)
    | unshift docs => nomatch done
    | deleteByQuery field id => nomatch done
    | processedTombstone activityId objectId => nomatch done
    | resolveOffset partition offset =>
      cases done
      exact .resolveOffset
    | heartbeat =>
      cases done
      exact .heartbeat
    | returned batch =>
      cases done
      exact .returned
    | clearInterval => nomatch done
    | disconnect => nomatch done
  admits s job admitted := by
    refine ⟨rfl, fun timer => ?_⟩
    subst timer
    simpa [undisturbed] using admitted
  react _ _ _ reacted := nomatch reacted

def mildCall (pool : IndexerPool) : Call → Bool
  | .goesOn _ => pool.shared.running && !pool.shared.stale
  | .push .. => pool.shared.batch.length + 1 < 500
  | .take => (underWay pool 0).isEmpty && (underWay pool 1).isEmpty
  | .bulk docs => docs.all fun entry => !pool.shared.rejects entry.document
  | .deleteByQuery .. => false
  | _ => true

def mild (pool : IndexerPool) : IndexerLabel → Bool
  | .call i =>
    match pool.workers i with
    | some ⟨_, .call c _⟩ => mildCall pool c
    | _ => true
  | .stop _ => false
  | _ => true

theorem harmless_of_mild (pool : IndexerPool) (label : IndexerLabel)
    (vacant : ∀ j, 2 ≤ j → pool.workers j = none) (is : mild pool label = true) :
    Harmless plain 500 pool (some label) ∧ ∀ i, label ≠ .stop i := by
  cases label with
  | stop i => cases is
  | start i worker => exact ⟨trivial, nofun⟩
  | act act => exact ⟨trivial, nofun⟩
  | call i =>
    refine ⟨fun job c next running => ?_, nofun⟩
    simp only [mild, running] at is
    cases c with
    | goesOn left =>
      simp only [mildCall, Bool.and_eq_true, Bool.not_eq_true'] at is
      exact .inl is
    | push document partition offset =>
      intro full
      simp only [mildCall, decide_eq_true_eq] at is
      omega
    | take =>
      simp only [mildCall, Bool.and_eq_true, List.isEmpty_iff] at is
      intro entry _ j other mem
      match j with
      | 0 =>
        rw [is.1] at mem
        cases mem
      | 1 =>
        rw [is.2] at mem
        cases mem
      | j + 2 =>
        simp [underWay, vacant (j + 2) (by omega)] at mem
    | bulk docs =>
      intro _ entry mem
      simpa using List.all_eq_true.mp is entry mem
    | deleteByQuery field id => cases is
    | fetch => trivial
    | unshift docs => trivial
    | processedTombstone activityId objectId => trivial
    | resolveOffset partition offset => trivial
    | heartbeat => trivial
    | returned batch => trivial
    | clearInterval => trivial
    | disconnect => trivial

def consumes : List (Turn Job Act) := [.start 0 .eachBatch] ++ List.replicate 6 (.call 0)

/-- What is seen of a state: the messages resolved, the events, and whether every document consumed
is in the index. -/
def seen (s : Indexer) : Nat × Nat × Bool :=
  (s.position ⟨.firehose, 0⟩, s.events.length, s.events.all fun
    | .consumed entry => (s.index (entry.id plain)).isSome
    | _ => true)

theorem reaches_consumed (turns : List (Turn Job Act)) (view : Nat × Nat × Bool)
    (below : turns.all (Turn.below 2) = true)
    (ran : (follow undisturbed (fun pool label => mild pool label = true) (Pool.idle .initial)
      turns).map (fun pool => seen pool.shared) = some view) :
    ∃ pool, Reaches (IndexerStep plain oneMessage 500) (Harmless plain 500) (Pool.idle .initial)
      pool ∧ seen pool.shared = view := by
  obtain ⟨pool, ran, sees⟩ := Option.map_eq_some_iff.mp ran
  refine ⟨pool, reaches_process ?_, sees⟩
  exact reaches_of_follow_below undisturbed_follows harmless_of_mild turns (fun _ _ => rfl) below ran

/-- The document is indexed when the timer fires after the message was consumed. -/
theorem index_faithful_oneMessage : ∃ pool : IndexerPool,
    seen pool.shared = (1, 1, true) ∧ Faithful plain oneMessage pool := by
  obtain ⟨pool, run, sees⟩ := reaches_consumed
    (consumes ++ [.start 1 .timer, .call 1, .call 1]) (1, 1, true) (by decide) (by decide +kernel)
  exact ⟨pool, sees, index_faithful plain oneMessage 500 pool run⟩

theorem unguarded {env : Environment} {log : Partition → List Message} {batchSize : Nat}
    {guard : IndexerPool → Option IndexerLabel → Prop} {pool after : IndexerPool}
    (run : Reaches (IndexerStep env log batchSize) guard pool after) :
    Reaches (IndexerStep env log batchSize) always pool after := by
  induction run with
  | refl => exact .refl
  | tail _ last before =>
    obtain ⟨label, -, step⟩ := last
    exact before.tail trivial step

theorem crash_loses_document :
    ¬ ∀ (env : Environment) (log : Partition → List Message) (batchSize : Nat) (pool : IndexerPool),
      Reaches (IndexerStep env log batchSize) always (Pool.idle .initial) pool →
        Faithful env log pool := by
  intro faithful
  obtain ⟨pool, run, sees⟩ := reaches_consumed consumes (1, 1, false) (by decide) (by decide +kernel)
  simp only [seen, Prod.mk.injEq] at sees
  obtain ⟨position, one, unindexed⟩ := sees
  have crashed := faithful plain oneMessage 500 _ ((unguarded run).tail trivial .crash)
  have flushed : Flushed oneMessage (Pool.idle pool.shared.restarted) := by
    refine ⟨fun partition => ?_, ?_⟩
    · simp only [oneMessage]
      split
      · case _ here =>
        subst here
        exact position.ge
      · exact Nat.zero_le _
    · rintro entry (mem | ⟨i, mem⟩) <;> cases mem
  obtain ⟨document, maps⟩ := Option.isSome_iff_exists.mp
    (by decide +kernel : (mapped plain .firehose (some "create")).isSome)
  have resolved : 0 < pool.shared.position ⟨.firehose, 0⟩ := by omega
  obtain ⟨⟨n, entry, is, there, at_⟩, present⟩ :=
    crashed.present flushed ⟨.firehose, 0⟩ 0 document resolved ⟨some "create", rfl, maps⟩
  have first : n = 0 := by
    have bound := (List.getElem?_eq_some_iff.1 is).1
    change n < pool.shared.events.length at bound
    omega
  have last : ∀ P, ¬ Since pool.shared n P := by
    rintro P ⟨k, event, after, found, -⟩
    have bound := (List.getElem?_eq_some_iff.1 found).1
    omega
  obtain deleted | replaced | ⟨stored, found, -⟩ := present n entry is there at_
  · exact last _ deleted
  · exact last _ replaced
  · -- the only event is the consumption, and its document is not in the index
    obtain ⟨event, single⟩ := List.length_eq_one_iff.1 one
    have consumed : event = .consumed entry := by
      have here : pool.shared.events[n]? = some (.consumed entry) := is
      simpa [single, first] using here
    have missing : pool.shared.index (entry.id plain) = none := by
      simpa [single, consumed] using unindexed
    have found' : pool.shared.index (entry.id plain) = some stored := found
    rw [missing] at found'
    cases found'

end MastopodFederation.Guarantees.ActivityIndex
