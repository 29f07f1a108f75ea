import MastopodFederation.Guarantees.AssetUpdates
import MastopodFederation.Guarantees.TransientSources
import MastopodFederation.Source.FinalizeWorker

/-!
# The media index and the canonical store

The finalize worker indexes an asset as it was built from the message, before the save merges
it with what is stored. When all messages were handled, the index agrees with the store
exactly if no asset was saved twice (`index_agrees_iff`), which depends on the messages and on
which steps failed after they took effect.
-/
namespace MastopodFederation.Guarantees.IndexAgreement
open Lib.Calls Source.FinalizeWorker
open Source.SecureWorker (Message WorkerEnvelope Thrown)
open Source.MediaProcessing (textOf)
open TransientSources (Redelivers)
open Source.AssetBackend (Store)
open Source.AssetStore (saveRedisAsset)
open AssetUpdates (counted performed)
open Lib.PoolRuns (serve)

variable {Signal : Type} {env : Environment Signal} {w : World Signal} {script : Script}

structure Entry (Signal : Type) where
  envelope : WorkerEnvelope
  request : MediaAssetIndexRequest Signal
  fates : ItemFates

def entries (env : Environment Signal) : Nat → List (WorkerEnvelope × ItemFates) → List (Entry Signal)
  | _, [] => []
  | ticks, (envelope, fates) :: rest =>
    ⟨envelope, buildRequest env envelope.message (env.clock ticks), fates⟩ :: entries env (ticks + 1) rest

def effective (fates : ItemFates) : Bool := fates.save ≠ .fails

def succeeds (fates : ItemFates) : Bool := fates.save = .works && fates.publish = .works

def saveEntry (env : Environment Signal) (w : World Signal) (entry : Entry Signal) : World Signal :=
  if effective entry.fates then saved env w entry.request.asset else w

theorem effective_of_succeeds {fates : ItemFates} (ok : succeeds fates = true) :
    effective fates = true := by
  simp only [succeeds, Bool.and_eq_true, decide_eq_true_eq] at ok
  simp [effective, ok.1]

theorem saveEntry_effective {entry : Entry Signal} (takes : effective entry.fates = true) :
    saveEntry env w entry = saved env w entry.request.asset := if_pos takes

def outcomeOf (fates : ItemFates) : Except Thrown Unit :=
  if succeeds fates then .ok () else .error failure

theorem run_bind {α β : Type} (x : Program Signal α) (f : α → Program Signal β) :
    run env (x >>= f) script w =
      match run env x script w with
      | (.ok a, left, after) => run env (f a) left after
      | (.error e, left, after) => (.error e, left, after) := by
  change run env (x.bind f) script w = _
  induction x generalizing script w with
  | done outcome => cases outcome <;> rfl
  | call c next ih =>
    cases c with
    | now => exact ih _
    | indexMediaAssets items =>
      simp only [Prog.bind, run]
      cases script.index <;> exact ih _
    | saveAsset asset =>
      simp only [Prog.bind, run]
      split <;> exact ih _
    | publishMediaEvent asset signals =>
      simp only [Prog.bind, run]
      cases script.publish <;> exact ih _

theorem run_persistAsset (e : Entry Signal) (later : List ItemFates) (publish : StepFate)
    (index : IndexFate) :
    run env (persistAsset e.request) ⟨index, e.fates :: later, publish⟩ w =
      (outcomeOf e.fates, ⟨index, later, e.fates.publish⟩, saveEntry env w e) := by
  obtain ⟨envelope, item, save, published⟩ := e
  change run env (.call (.saveAsset item.asset) _) _ w = _
  cases save <;> cases published <;> rfl

theorem run_attempt {α : Type} (x : Program Signal α) :
    run env (x.attempt : Program Signal (Except Thrown α)) script w =
      (.ok (run env x script w).1, (run env x script w).2) := by
  induction x generalizing script w with
  | done outcome => rfl
  | call c next ih =>
    cases c with
    | now => exact ih _
    | indexMediaAssets items =>
      simp only [Prog.attempt, run]
      cases script.index <;> exact ih _
    | saveAsset asset =>
      simp only [Prog.attempt, run]
      split <;> exact ih _
    | publishMediaEvent asset signals =>
      simp only [Prog.attempt, run]
      cases script.publish <;> exact ih _

def reported (list : List (Entry Signal)) : HandlerResult where
  handledMessageIds := (list.filter fun e => succeeds e.fates).map (·.envelope.id)
  failedMessages := (list.filter fun e => !succeeds e.fates).map (·.envelope)

theorem run_persistEach (w : World Signal) (list : List (Entry Signal)) (index : IndexFate) (publish : StepFate) :
    ∃ left, run env (persistEach (list.map fun e => (e.envelope, e.request)))
        ⟨index, list.map (·.fates), publish⟩ w =
      (.ok (reported list), left, list.foldl (saveEntry env) w) := by
  induction list generalizing w publish with
  | nil => exact ⟨_, rfl⟩
  | cons e rest ih =>
    obtain ⟨left, later⟩ := ih (saveEntry env w e) e.fates.publish
    refine ⟨left, ?_⟩
    rw [List.map_cons, List.map_cons, persistEach, run_bind, run_attempt, run_persistAsset]
    dsimp only
    rw [run_bind, later]
    unfold outcomeOf
    cases done : succeeds e.fates
    · simp only [reported, List.filter_cons, done]
      rfl
    · simp only [reported, List.filter_cons, done]
      rfl

theorem run_persistSingle (w : World Signal) (e : Entry Signal) (index : IndexFate) (publish : StepFate) :
    ∃ left, run env (persistAll [e.request]) ⟨index, [e.fates], publish⟩ w =
      (outcomeOf e.fates, left, saveEntry env w e) := by
  refine ⟨⟨index, [], e.fates.publish⟩, ?_⟩
  rw [persistAll, run_bind, run_persistAsset]
  unfold outcomeOf
  cases succeeds e.fates <;> rfl

theorem envelopes_entries (ticks : Nat) (items : List (WorkerEnvelope × ItemFates)) :
    (entries env ticks items).map (·.envelope) = items.map (·.1) := by
  induction items generalizing ticks with
  | nil => rfl
  | cons x rest ih => exact congrArg _ (ih (ticks + 1))

theorem fates_entries (ticks : Nat) (items : List (WorkerEnvelope × ItemFates)) :
    (entries env ticks items).map (·.fates) = items.map (·.2) := by
  induction items generalizing ticks with
  | nil => rfl
  | cons x rest ih => exact congrArg _ (ih (ticks + 1))

theorem run_buildAssets (items : List (WorkerEnvelope × ItemFates)) :
    run env (buildAssets env (items.map (·.1.message))) script w =
      (.ok ((entries env w.ticks items).map (·.request)), script,
        { w with ticks := w.ticks + items.length }) := by
  induction items generalizing w with
  | nil => rfl
  | cons x rest ih =>
    change run env (buildAssets env (rest.map (·.1.message)) >>= _) script w.tick = _
    rw [run_bind, ih]
    simp only [run, entries, World.tick, List.map_cons, List.length_cons, pure]
    congr 3
    omega

theorem run_indexMediaAssets (items : List (MediaAssetIndexRequest Signal)) (some_ : items ≠ []) :
    run env (indexMediaAssets items) script w =
      ((match script.index with | .works => .ok () | .fails _ => .error failure), script,
        { w with docs := (indexedItems items script.index).foldl (putDoc env) w.docs }) := by
  have full : items.isEmpty = false := by simpa using some_
  unfold indexMediaAssets
  rw [full, if_neg Bool.false_ne_true]
  simp only [run]
  cases script.index <;> rfl

def messagesOf (ok : Bool) (list : List (Entry Signal)) : List Message :=
  (list.filter fun e => succeeds e.fates == ok).map (·.envelope.message)

def settle (env : Environment Signal) (w : World Signal) (a : Attempt) : World Signal :=
  let list := entries env w.ticks a.items
  let indexed := { w with
    ticks := w.ticks + a.items.length
    docs := (indexedItems (list.map (·.request)) a.index).foldl (putDoc env) w.docs }
  match a.index with
  | .works => account env (list.foldl (saveEntry env) indexed) (messagesOf true list)
      (messagesOf false list)
  | .fails _ => account env indexed [] (list.map (·.envelope.message))

variable {list : List (Entry Signal)}

theorem filter_reported (distinct : (list.map (·.envelope.id)).Nodup) :
    ((list.map (·.envelope)).filter fun e => e.id ∈ (reported list).handledMessageIds).map
      (·.message) = messagesOf true list := by
  have same : ∀ e ∈ list, decide (e.envelope.id ∈ (reported list).handledMessageIds) =
      (succeeds e.fates == true) := by
    intro e listed
    rw [Bool.eq_iff_iff, decide_eq_true_iff, beq_iff_eq]
    constructor
    · intro handled
      obtain ⟨other, ok, id⟩ := List.mem_map.mp handled
      have one : other = e :=
        List.inj_on_of_nodup_map distinct (List.mem_of_mem_filter ok) listed id
      rw [← one]
      exact (List.mem_filter.mp ok).2
    · intro ok
      exact List.mem_map_of_mem (f := fun e : Entry Signal => e.envelope.id)
        (List.mem_filter.mpr ⟨listed, ok⟩)
  rw [List.filter_map, messagesOf, List.map_map]
  congr 1
  exact List.filter_congr same

theorem attempt_single (envelope : WorkerEnvelope) (index : IndexFate) (fates : ItemFates) :
    attempt env w (.single envelope index fates) = settle env w (.single envelope index fates) := by
  have built : run env (buildAssets env [envelope.message]) ⟨index, [fates], .works⟩ w = _ :=
    run_buildAssets [(envelope, fates)]
  unfold attempt settle handler persistAndPublish
  dsimp only [Attempt.script, Attempt.index, Attempt.items, List.map]
  rw [run_bind, built]
  dsimp only [entries, List.map]
  rw [run_bind, run_indexMediaAssets _ (List.cons_ne_nil _ _)]
  cases index with
  | fails indexed => rfl
  | works =>
    dsimp only
    obtain ⟨left, persisted⟩ := @run_persistSingle _ env _
      ⟨envelope, buildRequest env envelope.message (env.clock w.ticks), fates⟩ .works .works
    rw [persisted]
    unfold outcomeOf
    cases done : succeeds fates
    · simp [messagesOf, done]
    · simp [messagesOf, done]

theorem attempt_batch (index : IndexFate) (items : List (WorkerEnvelope × ItemFates))
    (distinct : (items.map (·.1.id)).Nodup) :
    attempt env w (.batch index items distinct) = settle env w (.batch index items distinct) := by
  have built : run env (buildAssets env ((items.map (·.1)).map (·.message)))
      ⟨index, items.map (·.2), .works⟩ w = (.ok ((entries env w.ticks items).map (·.request)),
        ⟨index, items.map (·.2), .works⟩, { w with ticks := w.ticks + items.length }) := by
    rw [List.map_map]
    exact run_buildAssets items
  have ids : ((entries env w.ticks items).map (·.envelope.id)).Nodup := by
    have same := congrArg (List.map (·.id)) (@envelopes_entries _ env w.ticks items)
    rw [List.map_map, List.map_map] at same
    exact same ▸ distinct
  have messages : (items.map (·.1)).map (·.message) =
      (entries env w.ticks items).map (·.envelope.message) := by
    rw [← @envelopes_entries _ env w.ticks items, List.map_map]
    rfl
  unfold attempt settle batchHandler
  dsimp only [Attempt.script, Attempt.index, Attempt.items]
  rw [run_bind, built]
  dsimp only
  rw [run_bind]
  by_cases empty : items = []
  · subst empty
    cases index <;> rfl
  · have some_ : (entries env w.ticks items).map (·.request) ≠ [] := by
      cases items with
      | nil => exact absurd rfl empty
      | cons x rest => exact List.cons_ne_nil _ _
    rw [run_indexMediaAssets _ some_]
    cases index with
    | fails indexed => rw [messages]
    | works =>
      dsimp only
      obtain ⟨left, persisted⟩ := @run_persistEach _ env { w with
        ticks := w.ticks + items.length
        docs := (indexedItems ((entries env w.ticks items).map (·.request)) .works).foldl
          (putDoc env) w.docs } (entries env w.ticks items) .works .works
      rw [fates_entries] at persisted
      have zipped : (items.map (·.1)).zip ((entries env w.ticks items).map (·.request)) =
          (entries env w.ticks items).map fun e => (e.envelope, e.request) := by
        rw [← @envelopes_entries _ env w.ticks items, List.zip_map']
      rw [zipped, persisted]
      dsimp only
      rw [← @envelopes_entries _ env w.ticks items, filter_reported ids]
      simp [messagesOf, reported]
      rfl

theorem attempt_eq (a : Attempt) : attempt env w a = settle env w a := by
  cases a with
  | single envelope index fates => exact attempt_single envelope index fates
  | batch index items distinct => exact attempt_batch index items distinct

def assetIdOf (message : Message) : String := textOf (message.get "sha256")

def savesOf (a : Attempt) : List String :=
  match a.index with
  | .works => (a.items.filter fun x => effective x.2).map fun x => assetIdOf x.1.message
  | .fails _ => []

def Built (env : Environment Signal) (e : Entry Signal) : Prop :=
  ∃ createdAt, e.request = buildRequest env e.envelope.message createdAt

theorem built_entries (ticks : Nat) (items : List (WorkerEnvelope × ItemFates)) :
    ∀ e ∈ entries env ticks items, Built env e := by
  induction items generalizing ticks with
  | nil => exact fun e listed => nomatch listed
  | cons x rest ih =>
    intro e listed
    rcases List.mem_cons.mp listed with rfl | later
    · exact ⟨_, rfl⟩
    · exact ih _ e later

variable {e : Entry Signal}

theorem Built.assetId (built : Built env e) :
    e.request.asset.assetId = assetIdOf e.envelope.message := by
  obtain ⟨createdAt, same⟩ := built
  rw [same]
  rfl

theorem Built.ingestCount (built : Built env e) :
    e.request.asset.ingestCount = some 1 := by
  obtain ⟨createdAt, same⟩ := built
  rw [same]
  rfl

theorem foldl_unseen {σ ι ν : Type} {step : σ → ι → σ} (view : σ → ν) {list : List ι}
    (skips : ∀ s, ∀ x ∈ list, view (step s x) = view s) (s : σ) :
    view (list.foldl step s) = view s := by
  induction list generalizing s with
  | nil => rfl
  | cons x rest ih =>
    rw [List.foldl_cons, ih fun t y later => skips t y (List.mem_cons_of_mem _ later)]
    exact skips s x List.mem_cons_self

theorem counted_saveEntry (built : Built env e) (id : String) :
    counted ((saveEntry env w e).assets id) = counted (w.assets id) +
      if effective e.fates ∧ assetIdOf e.envelope.message = id then 1 else 0 := by
  unfold saveEntry
  split
  next takes =>
    simp only [saved, built.assetId, takes, true_and]
    by_cases here : id = assetIdOf e.envelope.message
    · subst here
      rw [if_pos rfl, if_pos rfl, savedAsset, built.assetId]
      cases w.assets (assetIdOf e.envelope.message) with
      | none => simp [counted, built.ingestCount]
      | some existing => rfl
    · rw [if_neg here, if_neg fun same => here same.symm]
      rfl
  next skipped => simp [skipped]

theorem counted_foldl (built : ∀ e ∈ list, Built env e) (id : String) (w : World Signal) :
    counted ((list.foldl (saveEntry env) w).assets id) = counted (w.assets id) +
      ((list.filter fun e => effective e.fates).map fun e => assetIdOf e.envelope.message).count id := by
  induction list generalizing w with
  | nil => rfl
  | cons e rest ih =>
    obtain ⟨first, later⟩ := List.forall_mem_cons.mp built
    rw [List.foldl_cons, ih later, counted_saveEntry first, List.filter_cons]
    cases takes : effective e.fates
    · simp
    · by_cases here : assetIdOf e.envelope.message = id
      · simp [here]
        omega
      · simp [here]

theorem savesOf_works {a : Attempt} (works : a.index = .works) (ticks : Nat) :
    savesOf a = ((entries env ticks a.items).filter fun e => effective e.fates).map
      fun e => assetIdOf e.envelope.message := by
  unfold savesOf
  rw [works]
  dsimp only
  generalize a.items = items
  induction items generalizing ticks with
  | nil => rfl
  | cons x rest ih =>
    simp only [entries, List.filter_cons]
    split
    · rw [List.map_cons, List.map_cons, ih (ticks + 1)]
    · exact ih (ticks + 1)

theorem counted_settle (a : Attempt) (id : String) :
    counted ((settle env w a).assets id) = counted (w.assets id) + (savesOf a).count id := by
  unfold settle
  cases works : a.index with
  | works =>
    rw [@savesOf_works _ env a works w.ticks]
    exact counted_foldl (built_entries _ _) id _
  | fails indexed => simp [savesOf, works, account]

def Single (docs : String → Option IndexDocument) : Prop :=
  ∀ id doc, docs id = some doc → doc.ingestCount = 1

variable {docs : String → Option IndexDocument} {item : MediaAssetIndexRequest Signal}

theorem single_putDoc (single : Single docs) (fresh : item.asset.ingestCount = some 1) :
    Single (putDoc env docs item) := by
  intro id doc there
  unfold putDoc at there
  split at there
  · cases there
    simp [buildIndexDocument, fresh]
  · exact single id doc there

variable {items : List (MediaAssetIndexRequest Signal)}

theorem single_foldl (fresh : ∀ item ∈ items, item.asset.ingestCount = some 1)
    (single : Single docs) : Single (items.foldl (putDoc env) docs) := by
  induction items generalizing docs with
  | nil => exact single
  | cons item rest ih =>
    obtain ⟨first, later⟩ := List.forall_mem_cons.mp fresh
    exact ih later (single_putDoc single first)

theorem mem_indexedItems {fate : IndexFate} (listed : item ∈ indexedItems items fate) :
    item ∈ items := by
  cases fate with
  | works => exact listed
  | fails indexed =>
    obtain ⟨⟨x, n⟩, there, rfl⟩ := List.mem_map.mp listed
    exact List.fst_mem_of_mem_zipIdx (List.mem_of_mem_filter there)

@[simp] theorem docs_saveEntry (e : Entry Signal) : (saveEntry env w e).docs = w.docs := by
  unfold saveEntry
  split <;> rfl

theorem docs_settle (a : Attempt) : (settle env w a).docs =
    (indexedItems ((entries env w.ticks a.items).map (·.request)) a.index).foldl (putDoc env)
      w.docs := by
  unfold settle
  cases works : a.index with
  | works => exact foldl_unseen World.docs (fun s e _ => docs_saveEntry e) _
  | fails indexed => rfl

theorem single_settle (a : Attempt) (single : Single w.docs) : Single (settle env w a).docs := by
  rw [docs_settle]
  apply single_foldl _ single
  intro item listed
  obtain ⟨e, there, rfl⟩ := List.mem_map.mp (mem_indexedItems listed)
  exact (built_entries _ _ e there).ingestCount

/-- The document of an asset is the one of what is stored, with the labels of the message that
was handled last. -/
def Consistent (env : Environment Signal) (w : World Signal) (id : String) : Prop :=
  match w.assets id with
  | none => w.docs id = none
  | some asset => ∃ signals, w.lastSignals id = some signals ∧
    w.docs id = some (buildIndexDocument env asset signals)

def Agrees (env : Environment Signal) (w : World Signal) : Prop := ∀ id, Consistent env w id

def Outstanding (queue : Nat → Message) (w : World Signal) (id : String) : Prop :=
  ∃ job ∈ w.unhandled, assetIdOf (queue job) = id

def Copies (worker : Source.SecureWorker.Environment) (queue : Nat → Message) (a : Attempt) : Prop :=
  ∀ x ∈ a.items, Redelivers worker (queue x.1.message.job) x.1.message

theorem assetId_copy {worker : Source.SecureWorker.Environment} {message copy : Message}
    (redelivers : Redelivers worker message copy) : assetIdOf copy = assetIdOf message :=
  congrArg textOf (TransientSources.get_redelivered (by decide) redelivers)

section Untouched
variable {id : String} {list : List (Entry Signal)}

theorem assets_unsaved (built : ∀ e ∈ list, Built env e)
    (other : ∀ e ∈ list, effective e.fates = true → assetIdOf e.envelope.message ≠ id)
    (w : World Signal) : (list.foldl (saveEntry env) w).assets id = w.assets id := by
  refine foldl_unseen (fun v : World Signal => v.assets id) (fun v e listed => ?_) w
  dsimp only [saveEntry]
  split
  next takes =>
    refine if_neg fun same => other e listed takes ?_
    rw [← (built e listed).assetId, same]
  next => rfl

theorem docs_unindexed {items : List (MediaAssetIndexRequest Signal)}
    (other : ∀ item ∈ items, item.asset.assetId ≠ id) (docs : String → Option IndexDocument) :
    items.foldl (putDoc env) docs id = docs id := by
  refine foldl_unseen (fun d : String → Option IndexDocument => d id) (fun d item listed => ?_) docs
  exact if_neg fun same => other item listed same.symm

theorem lastSignals_unhandled {handled : List Message} (other : ∀ m ∈ handled, assetIdOf m ≠ id)
    (last : String → Option (List Signal)) :
    handled.foldl (fun last message id => if id = textOf (message.get "sha256") then
      some (env.parseSafetySignals (message.get "signals")) else last id) last id = last id := by
  refine foldl_unseen (fun l : String → Option (List Signal) => l id) (fun l message listed => ?_) last
  exact if_neg fun same => other message listed same.symm

end Untouched

section Step
variable {id : String} {a : Attempt} {queue : Nat → Message}
  {worker : Source.SecureWorker.Environment}

theorem outstanding_account {handled failed : List Message} (copies : ∀ m ∈ handled,
    assetIdOf m = assetIdOf (queue m.job)) (other : ∀ m ∈ handled, assetIdOf m ≠ id)
    (before : Outstanding queue w id) : Outstanding queue (account env w handled failed) id := by
  obtain ⟨job, listed, of⟩ := before
  refine ⟨job, List.mem_append_right _ (List.mem_filter.mpr ⟨listed, ?_⟩), of⟩
  rw [decide_eq_true_iff]
  intro done
  obtain ⟨m, there, rfl⟩ := List.mem_map.mp done
  exact other m there ((copies m there).trans of)

theorem outstanding_failed {handled failed : List Message} {m : Message} (listed : m ∈ failed)
    (copy : assetIdOf m = assetIdOf (queue m.job)) :
    Outstanding queue (account env w handled failed) (assetIdOf m) :=
  ⟨m.job, List.mem_append_left _ (List.mem_map_of_mem listed), copy.symm⟩

theorem mem_messagesOf {ok : Bool} {list : List (Entry Signal)} {m : Message}
    (listed : m ∈ messagesOf ok list) : ∃ e ∈ list, e.envelope.message = m := by
  obtain ⟨e, there, same⟩ := List.mem_map.mp listed
  exact ⟨e, List.mem_of_mem_filter there, same⟩

theorem copies_entries (copies : Copies worker queue a) (ticks : Nat) :
    ∀ e ∈ entries env ticks a.items,
      assetIdOf e.envelope.message = assetIdOf (queue e.envelope.message.job) := by
  intro e listed
  have there : e.envelope ∈ a.items.map (·.1) := by
    rw [← @envelopes_entries _ env ticks a.items]
    exact List.mem_map_of_mem listed
  obtain ⟨x, item, same⟩ := List.mem_map.mp there
  rw [← same]
  exact assetId_copy (copies x item)

theorem unhandled_saves (list : List (Entry Signal)) (w : World Signal) :
    (list.foldl (saveEntry env) w).unhandled = w.unhandled := by
  refine foldl_unseen World.unhandled (fun v e _ => ?_) w
  unfold saveEntry
  split <;> rfl

theorem mem_saves {list : List (Entry Signal)} {e : Entry Signal} (listed : e ∈ list)
    (takes : effective e.fates = true) : assetIdOf e.envelope.message ∈
      (list.filter fun e => effective e.fates).map fun e => assetIdOf e.envelope.message :=
  List.mem_map_of_mem (f := fun e : Entry Signal => assetIdOf e.envelope.message)
    (List.mem_filter.mpr ⟨listed, takes⟩)

theorem lastSignals_saves (list : List (Entry Signal)) (w : World Signal) :
    (list.foldl (saveEntry env) w).lastSignals = w.lastSignals := by
  refine foldl_unseen World.lastSignals (fun v e _ => ?_) w
  unfold saveEntry
  split <;> rfl

theorem consistent_elsewhere
    (other : ∀ e ∈ entries env w.ticks a.items, assetIdOf e.envelope.message ≠ id)
    (before : Consistent env w id) : Consistent env (settle env w a) id := by
  have built : ∀ e ∈ entries env w.ticks a.items, Built env e := built_entries _ _
  have docs : (settle env w a).docs id = w.docs id := by
    rw [docs_settle]
    apply docs_unindexed
    intro item listed
    obtain ⟨e, there, rfl⟩ := List.mem_map.mp (mem_indexedItems listed)
    rw [(built e there).assetId]
    exact other e there
  have handled : ∀ m ∈ messagesOf true (entries env w.ticks a.items), assetIdOf m ≠ id := by
    intro m listed
    obtain ⟨e, there, rfl⟩ := mem_messagesOf listed
    exact other e there
  have rest : (settle env w a).assets id = w.assets id ∧
      (settle env w a).lastSignals id = w.lastSignals id := by
    unfold settle
    cases a.index with
    | works =>
      exact ⟨assets_unsaved built (fun e listed _ => other e listed) _, (lastSignals_unhandled handled _).trans
        (congrFun (lastSignals_saves _ _) id)⟩
    | fails indexed => exact ⟨rfl, rfl⟩
  unfold Consistent at before ⊢
  rw [rest.1, rest.2, docs]
  exact before

/-- An attempt in which the asset of one message is saved for the first time, and by no other
message, leaves the asset with its document. -/
theorem consistent_saved {pre post : List (Entry Signal)} {e : Entry Signal}
    (works : a.index = .works) (split : entries env w.ticks a.items = pre ++ e :: post)
    (before : ∀ x ∈ pre, assetIdOf x.envelope.message ≠ assetIdOf e.envelope.message)
    (later : ∀ x ∈ post, assetIdOf x.envelope.message ≠ assetIdOf e.envelope.message)
    (ok : succeeds e.fates = true) (vacant : w.assets (assetIdOf e.envelope.message) = none) :
    Consistent env (settle env w a) (assetIdOf e.envelope.message) := by
  have built : ∀ e ∈ entries env w.ticks a.items, Built env e := built_entries _ _
  rw [split] at built
  have preBuilt : ∀ x ∈ pre, Built env x := fun x there => built x (List.mem_append_left _ there)
  have postBuilt : ∀ x ∈ post, Built env x :=
    fun x there => built x (List.mem_append_right _ (List.mem_cons_of_mem _ there))
  obtain ⟨createdAt, request⟩ := built e (by simp)
  have takes := effective_of_succeeds ok
  have named : e.request.asset.assetId = assetIdOf e.envelope.message := by rw [request]; rfl
  have docs : (settle env w a).docs (assetIdOf e.envelope.message) =
      some (buildIndexDocument env e.request.asset e.request.signals) := by
    rw [docs_settle, works, split, indexedItems, List.map_append, List.map_cons, List.foldl_append,
      List.foldl_cons, docs_unindexed]
    · exact if_pos named.symm
    · intro item listed
      obtain ⟨x, there, rfl⟩ := List.mem_map.mp listed
      rw [(postBuilt x there).assetId]
      exact later x there
  have assets : (settle env w a).assets (assetIdOf e.envelope.message) = some e.request.asset := by
    unfold settle
    rw [works, split]
    dsimp only [account]
    rw [List.foldl_append, List.foldl_cons, assets_unsaved postBuilt fun x there _ => later x there]
    rw [saveEntry_effective takes]
    refine (if_pos named.symm).trans ?_
    rw [savedAsset, named, assets_unsaved preBuilt fun x there _ => before x there]
    dsimp only
    rw [vacant]
  have last : (settle env w a).lastSignals (assetIdOf e.envelope.message) =
      some e.request.signals := by
    unfold settle
    rw [works, split]
    dsimp only [account]
    have handled : messagesOf true (pre ++ e :: post) =
        messagesOf true pre ++ e.envelope.message :: messagesOf true post := by
      simp [messagesOf, ok]
    rw [handled, List.foldl_append, List.foldl_cons, lastSignals_unhandled]
    · rw [request]
      exact if_pos rfl
    · intro m listed
      obtain ⟨x, there, rfl⟩ := mem_messagesOf listed
      exact later x there
  unfold Consistent
  rw [assets]
  exact ⟨_, last, docs⟩

def Tended (env : Environment Signal) (queue : Nat → Message) (w : World Signal) (id : String) : Prop :=
  Outstanding queue w id ∨ Consistent env w id

theorem tended_settle (copies : Copies worker queue a) (once : (savesOf a).Nodup)
    (unsaved : ∀ id ∈ savesOf a, w.assets id = none) (tended : Tended env queue w id) :
    Tended env queue (settle env w a) id := by
  have copied : ∀ e ∈ entries env w.ticks a.items,
      assetIdOf e.envelope.message = assetIdOf (queue e.envelope.message.job) :=
    copies_entries copies w.ticks
  by_cases concerned : ∃ e ∈ entries env w.ticks a.items, assetIdOf e.envelope.message = id
  · obtain ⟨e, listed, rfl⟩ := concerned
    cases works : a.index with
    | fails indexed =>
      left
      unfold settle
      rw [works]
      exact outstanding_failed (List.mem_map_of_mem listed) (copied e listed)
    | works =>
      by_cases failed : ∃ x ∈ entries env w.ticks a.items,
          assetIdOf x.envelope.message = assetIdOf e.envelope.message ∧ succeeds x.fates = false
      · obtain ⟨x, there, same, fails⟩ := failed
        left
        unfold settle
        rw [works, ← same]
        refine outstanding_failed (List.mem_map_of_mem (List.mem_filter.mpr ⟨there, ?_⟩))
          (copied x there)
        simp [fails]
      · right
        have all : ∀ x ∈ entries env w.ticks a.items,
            assetIdOf x.envelope.message = assetIdOf e.envelope.message →
            succeeds x.fates = true := by
          intro x there same
          by_contra fails
          exact failed ⟨x, there, same, by simpa using fails⟩
        obtain ⟨pre, post, split⟩ := List.append_of_mem listed
        have ok := all e listed rfl
        have takes := effective_of_succeeds ok
        rw [@savesOf_works _ env a works w.ticks] at once unsaved
        rw [split] at all once unsaved
        rw [List.filter_append,
          List.filter_cons_of_pos (p := fun e : Entry Signal => effective e.fates) takes,
          List.map_append, List.map_cons] at once unsaved
        obtain ⟨-, second, apart⟩ := List.nodup_append.mp once
        have before : ∀ x ∈ pre, assetIdOf x.envelope.message ≠ assetIdOf e.envelope.message := by
          intro x there same
          have fine := effective_of_succeeds (all x (List.mem_append_left _ there) same)
          exact apart _ (mem_saves there fine) _ List.mem_cons_self same
        have later : ∀ x ∈ post, assetIdOf x.envelope.message ≠ assetIdOf e.envelope.message := by
          intro x there same
          have fine := effective_of_succeeds
            (all x (List.mem_append_right _ (List.mem_cons_of_mem _ there)) same)
          exact (List.nodup_cons.mp second).1 (same ▸ mem_saves there fine)
        exact consistent_saved works split before later ok (unsaved _ (by simp))
  · have other : ∀ e ∈ entries env w.ticks a.items, assetIdOf e.envelope.message ≠ id :=
      fun e listed same => concerned ⟨e, listed, same⟩
    rcases tended with outstanding | consistent
    · left
      unfold settle
      have handled : ∀ m ∈ messagesOf true (entries env w.ticks a.items),
          assetIdOf m = assetIdOf (queue m.job) ∧ assetIdOf m ≠ id := by
        intro m listed
        obtain ⟨e, there, rfl⟩ := mem_messagesOf listed
        exact ⟨copied e there, other e there⟩
      cases a.index with
      | works =>
        apply outstanding_account (fun m listed => (handled m listed).1)
          (fun m listed => (handled m listed).2)
        obtain ⟨job, there, of⟩ := outstanding
        exact ⟨job, by rw [unhandled_saves]; exact there, of⟩
      | fails indexed => exact outstanding_account nofun nofun outstanding
    · exact .inr (consistent_elsewhere other consistent)

end Step

structure Tracks (w : World Signal) (savedIds : List String) : Prop where
  count : ∀ id, counted (w.assets id) = savedIds.count id
  vacant : ∀ id, id ∉ savedIds → w.assets id = none
  docs : Single w.docs

theorem tracks_initial : Tracks (World.initial : World Signal) [] where
  count _ := rfl
  vacant _ _ := rfl
  docs _ _ there := nomatch there

theorem assets_settle {a : Attempt} {id : String} (unsaved : id ∉ savesOf a) :
    (settle env w a).assets id = w.assets id := by
  unfold settle
  cases works : a.index with
  | works =>
    rw [@savesOf_works _ env a works w.ticks] at unsaved
    refine assets_unsaved (built_entries _ _) (fun e listed takes same => ?_) _
    subst same
    exact unsaved (mem_saves listed takes)
  | fails indexed => rfl

variable {savedIds : List String}

theorem Tracks.attempt (tracks : Tracks w savedIds) (a : Attempt) :
    Tracks (attempt env w a) (savedIds ++ savesOf a) where
  count id := by rw [attempt_eq, counted_settle, tracks.count, List.count_append]
  vacant id fresh := by
    rw [List.mem_append, not_or] at fresh
    rw [attempt_eq, assets_settle fresh.2]
    exact tracks.vacant id fresh.1
  docs := by
    rw [attempt_eq]
    exact single_settle a tracks.docs

theorem Tracks.attempts {made : List Attempt}
    (tracks : Tracks w savedIds) : Tracks (attempts env w made) (savedIds ++ made.flatMap savesOf) := by
  induction made generalizing w savedIds with
  | nil => simpa [attempts] using tracks
  | cons a rest ih =>
    rw [List.flatMap_cons, ← List.append_assoc]
    exact ih (tracks.attempt a)

section Runs
variable {worker : Source.SecureWorker.Environment} {queue : Nat → Message} {made : List Attempt}

/-- As long as no asset is saved twice, the index agrees with the store on every asset without
an outstanding job. -/
theorem tended_attempts {savedIds : List String} (copies : ∀ a ∈ made, Copies worker queue a)
    (tracks : Tracks w savedIds) (once : (savedIds ++ made.flatMap savesOf).Nodup)
    (tended : ∀ id, Tended env queue w id) (id : String) :
    Tended env queue (attempts env w made) id := by
  induction made generalizing w savedIds with
  | nil => exact tended id
  | cons a rest ih =>
    rw [List.flatMap_cons, ← List.append_assoc] at once
    apply ih (fun b later => copies b (List.mem_cons_of_mem _ later)) (tracks.attempt a) once
    intro other
    obtain ⟨-, mine, apart⟩ := List.nodup_append.mp (List.nodup_append.mp once).1
    rw [attempt_eq]
    apply tended_settle (copies a List.mem_cons_self) mine _ (tended other)
    intro saved_ listed
    exact tracks.vacant saved_ fun before => apart _ before _ listed rfl

/-- Once every message was handled, the index agrees with the store exactly if no asset was
saved twice. -/
theorem index_agrees_iff (env : Environment Signal) (worker : Source.SecureWorker.Environment)
    (queue : Nat → Message) (made : List Attempt) (copies : ∀ a ∈ made, Copies worker queue a)
    (settled : (attempts env .initial made).unhandled = []) :
    Agrees env (attempts env .initial made) ↔ (made.flatMap savesOf).Nodup := by
  have tracks : Tracks (attempts env .initial made) (made.flatMap savesOf) := tracks_initial.attempts
  constructor
  · intro agrees
    rw [List.nodup_iff_count_le_one]
    intro id
    rw [← tracks.count id]
    have consistent := agrees id
    unfold Consistent at consistent
    cases stored : (attempts env .initial made).assets id with
    | none => simp [counted]
    | some asset =>
      rw [stored] at consistent
      obtain ⟨signals, -, doc⟩ := consistent
      exact (tracks.docs id _ doc).le
  · intro once id
    have start : ∀ id, Tended env queue (World.initial : World Signal) id := fun id => .inr rfl
    have tended := tended_attempts copies tracks_initial once start id
    refine tended.resolve_left ?_
    rintro ⟨job, listed, -⟩
    rw [settled] at listed
    cases listed

end Runs

def plainEnv : Environment String where
  localeCompare left right := compare left right
  number _ := .null
  parseJson _ := none
  parseFocalPoint _ := none
  sha256HexToDigestMultibase _ := none
  parseSafetySignals text := text.toList
  labels signal := [signal]
  clock _ := "2026-01-01T00:00:00.000Z"

def plainWorker : Source.SecureWorker.Environment where
  isoString _ := ""
  payload _ := ""

def upload (job : Nat) (owner sha256 : String) : Message :=
  ⟨job, [("sha256", sha256), ("ownerId", owner), ("mimeType", "image/webp")]⟩

def allWork : ItemFates := ⟨.works, .works⟩

def sameUploads : List Attempt :=
  [.single ⟨"1-0", upload 0 "alice" "c1"⟩ .works allWork,
    .single ⟨"2-0", upload 1 "bob" "c1"⟩ .works allWork]

def counts (w : World String) : Option Nat × Nat × List Nat :=
  ((w.docs "c1").map (·.ingestCount), counted (w.assets "c1"), w.unhandled)

theorem reupload_diverges :
    (attempts plainEnv .initial sameUploads).unhandled = [] ∧
      ¬Agrees plainEnv (attempts plainEnv .initial sameUploads) := by
  have ran : counts (attempts plainEnv .initial sameUploads) = (some 1, 2, []) := by decide +kernel
  simp only [counts, Prod.mk.injEq] at ran
  obtain ⟨doc, stored, settled⟩ := ran
  refine ⟨settled, fun agrees => ?_⟩
  have consistent := agrees "c1"
  unfold Consistent at consistent
  cases present : (attempts plainEnv .initial sameUploads).assets "c1" with
  | none =>
    rw [present] at stored
    nomatch stored
  | some asset =>
    rw [present] at consistent stored
    obtain ⟨signals, -, same⟩ := consistent
    rw [same] at doc
    have one : asset.ingestCount.getD 1 = 1 := Option.some.inj doc
    exact nomatch one.symm.trans stored

def retried : List Attempt :=
  [.batch .works [(⟨"1-0", upload 0 "alice" "c1"⟩, allWork),
      (⟨"2-0", upload 1 "bob" "c2"⟩, ⟨.fails, .works⟩)] (by decide),
    .single ⟨"2-0", upload 1 "bob" "c2"⟩ .works allWork]

theorem index_agrees_iff_retried : Agrees plainEnv (attempts plainEnv .initial retried) := by
  have copies : ∀ a ∈ retried, Copies plainWorker
      (fun job => if job = 0 then upload 0 "alice" "c1" else upload 1 "bob" "c2") a := by
    intro a listed x item
    simp only [retried, List.mem_cons, List.not_mem_nil, or_false] at listed
    rcases listed with rfl | rfl
    · simp only [Attempt.items, List.mem_cons, List.not_mem_nil, or_false] at item
      rcases item with rfl | rfl <;> exact .same
    · simp only [Attempt.items, List.mem_singleton] at item
      subst item
      exact .same
  have settled : (attempts plainEnv .initial retried).unhandled = [] := by decide +kernel
  exact (index_agrees_iff plainEnv plainWorker _ retried copies settled).mpr (by decide +kernel)

end MastopodFederation.Guarantees.IndexAgreement
