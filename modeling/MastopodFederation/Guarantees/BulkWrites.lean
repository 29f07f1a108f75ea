import MastopodFederation.Guarantees.IndexWrites

/-!
# Batches and the ordered path

A batch picks the document ids of all its events before it writes any, and writes the fresh ones
in bulk; the ordered path lets each event see the aliases of the events before it. The two
agree exactly when no event on the bulk path is looked up by a URI that an earlier event of the
batch publishes.
-/
namespace MastopodFederation.Guarantees.BulkWrites
open Lib.ServedCalls Source.PublicContentIndexWriter IndexWrites

variable {time : String → Option Int} {x y : Index} {events : List SearchPublicUpsertV1}
  {event : SearchPublicUpsertV1}

variable (time) in
def Fits : Index → List SearchPublicUpsertV1 → Prop
  | _, [] => True
  | x, event :: rest =>
    (event.upsertKind = .part ∨ targetOf x event ≠ "") ∧ Fits (upserted time x event) rest

variable {i : Nat}

theorem gives_orBatchError {α : Type} {message : String} {body : Run α} {a : α} :
    Gives service (orBatchError message i body) x a y ↔ Gives service body x a y :=
  gives_rescue fun _ _ => not_gives_fail

variable (time) in
def inOrder : List SearchPublicUpsertV1 → Run Unit
  | [] => pure ()
  | event :: rest => do
    onUpsert time event
    inOrder rest

theorem gives_inOrder : Gives service (inOrder time events) x () y ↔
    Fits time x events ∧ y = events.foldl (upserted time) x := by
  induction events generalizing x with
  | nil => simp [inOrder, gives_pure, Fits]
  | cons event rest ih =>
    unfold inOrder Fits
    rw [gives_bind]
    constructor
    · intro ⟨(), z, first, later⟩
      obtain ⟨fits, rfl⟩ := gives_onUpsert.mp first
      obtain ⟨fit, same⟩ := ih.mp later
      exact ⟨⟨fits, fit⟩, same⟩
    · intro ⟨⟨fits, fit⟩, same⟩
      exact ⟨(), upserted time x event, gives_onUpsert.mpr ⟨fits, rfl⟩, ih.mpr ⟨fit, same⟩⟩

theorem gives_upsertEach : Gives service (upsertEach time i events) x () y ↔
    Gives service (inOrder time events) x () y := by
  induction events generalizing x i with
  | nil => exact Iff.rfl
  | cons event rest ih =>
    unfold upsertEach inOrder
    simp only [gives_bind, gives_orBatchError, ih]

theorem fits_append {before after : List SearchPublicUpsertV1}
    (fits : Fits time x (before ++ after)) :
    Fits time x before ∧ Fits time (before.foldl (upserted time) x) after := by
  induction before generalizing x with
  | nil => exact ⟨trivial, fits⟩
  | cons event rest ih =>
    obtain ⟨first, later⟩ := ih fits.2
    exact ⟨⟨fits.1, first⟩, later⟩

def planted (x : Index) (entry : SearchPublicUpsertV1 × String) : Index :=
  published (x.upsert entry.2 (buildDocument entry.1 entry.2 none)) entry.1 entry.2

variable (time) in
def batched (sequential : SearchPublicUpsertV1 × String → Bool) (x : Index)
    (entry : SearchPublicUpsertV1 × String) : Index :=
  if sequential entry then upserted time x entry.1 else planted x entry

def writeAll (x : Index) (entries : List (SearchPublicUpsertV1 × String)) : Index :=
  entries.foldl (fun x entry => x.upsert entry.2 (buildDocument entry.1 entry.2 none)) x

def publishAll (x : Index) (entries : List (SearchPublicUpsertV1 × String)) : Index :=
  entries.foldl (fun x entry => published x entry.1 entry.2) x

theorem published_writeAll (entries : List (SearchPublicUpsertV1 × String)) (id : String) :
    published (writeAll x entries) event id = writeAll (published x event id) entries := by
  induction entries generalizing x with
  | nil => rfl
  | cons entry rest ih => exact ih

theorem publishAll_writeAll (entries : List (SearchPublicUpsertV1 × String)) :
    publishAll (writeAll x entries) entries = entries.foldl planted x := by
  induction entries generalizing x with
  | nil => rfl
  | cons entry rest ih =>
    change publishAll (published (writeAll (x.upsert entry.2 _) rest) entry.1 entry.2) rest = _
    rw [published_writeAll]
    exact ih

theorem run_publishEach (i : Nat) (entries : List (SearchPublicUpsertV1 × String)) :
    service.run undisturbed (publishEach i entries (entries.map fun _ => true)) x =
      (.ok none, publishAll x entries) := by
  induction entries generalizing x i with
  | nil => rfl
  | cons entry rest ih =>
    have attempted : service.run undisturbed ((publishAliases entry.1 entry.2).attempt :
        Run (Except Failure Unit)) x = (.ok (.ok ()), published x entry.1 entry.2) := by
      rw [run_attempt, run_publishAliases]
    have own : service.run undisturbed (publishEntry i entry true) x =
        (.ok none, published x entry.1 entry.2) := run_bind_ok attempted
    change service.run undisturbed (publishEntry i entry true >>= _) x = _
    rw [run_bind_ok own, run_bind_ok (ih (i + 1))]
    rfl

variable {entries : List (SearchPublicUpsertV1 × String)}

theorem gives_upsertMany {results : List Bool}
    (given : Gives service (.call (.upsertMany (entries.map fun (event, id) =>
      (id, buildDocument event id none))) replied) x results y) :
    results = entries.map (fun _ => true) ∧ y = writeAll x entries := by
  unfold Gives at given
  simp only [Service.run, undisturbed, Service.suffer, service, Index.answer, Index.onIds] at given
  split at given
  · cases given
  · cases given
    simp [writeAll, List.foldl_map]

theorem gives_writeBulk {start : Nat}
    (given : Gives service (writeBulk start entries) x () y) : y = entries.foldl planted x := by
  unfold writeBulk at given
  by_cases none : entries = []
  · rw [if_pos none] at given
    rw [none]
    exact (gives_pure.mp given).2
  rw [if_neg none, gives_bind] at given
  obtain ⟨results, z, written, later⟩ := given
  obtain ⟨rfl, rfl⟩ := gives_upsertMany (gives_orBatchError.mp written)
  rw [if_neg (by simp), gives_bind] at later
  obtain ⟨failure, w, publishing, ended⟩ := later
  unfold Gives at publishing
  rw [run_publishEach] at publishing
  cases publishing
  rw [(gives_pure.mp ended).2, publishAll_writeAll]

variable {sequential : SearchPublicUpsertV1 × String → Bool}

theorem foldl_fast
    (fast : ∀ entry ∈ entries, sequential entry = false) :
    entries.foldl (batched time sequential) x = entries.foldl planted x := by
  apply List.foldl_ext
  intro z entry mem
  simp [batched, fast entry mem]

theorem gives_writeOrdered
    {pending : List (SearchPublicUpsertV1 × String)}
    (fast : ∀ entry ∈ pending, sequential entry = false)
    (given : Gives service (writeOrdered time sequential i pending entries) x () y) :
    y = (pending ++ entries).foldl (batched time sequential) x := by
  induction entries generalizing i pending x with
  | nil =>
    rw [List.append_nil, foldl_fast fast]
    exact gives_writeBulk given
  | cons entry rest ih =>
    unfold writeOrdered at given
    cases kind : sequential entry with
    | true =>
      rw [kind, if_pos rfl, gives_bind] at given
      obtain ⟨_, z, bulk, given⟩ := given
      rw [gives_bind] at given
      obtain ⟨_, w, ordered, later⟩ := given
      obtain ⟨-, rfl⟩ := gives_onUpsert.mp (gives_orBatchError.mp ordered)
      rw [ih (by simp) later, gives_writeBulk bulk, List.nil_append, List.foldl_append,
        foldl_fast fast]
      simp [batched, kind]
    | false =>
      rw [kind, if_neg (by simp)] at given
      have more : ∀ other ∈ pending ++ [entry], sequential other = false := by
        intro other mem
        rcases List.mem_append.mp mem with mem | mem
        · exact fast other mem
        · rw [List.mem_singleton.mp mem, kind]
      rw [ih more given, List.append_assoc]
      rfl

theorem run_resolveEach (i : Nat) : service.run undisturbed (resolveEach i events) x =
    (.ok (events.map (targetOf x)), x) := by
  induction events generalizing i with
  | nil => rfl
  | cons event rest ih =>
    have own : service.run undisturbed (orBatchError "Stable document ID resolution failed" i
        (resolveStableDocId event)) x = (.ok (targetOf x event), x) :=
      gives_orBatchError.mpr run_resolve
    unfold resolveEach
    rw [run_bind_ok own, run_bind_ok (ih (i + 1))]
    rfl

/-- The event is written in bulk: it is full, no other event of the batch has its id, and the
index has no document under it. -/
def OnBulkPath (x : Index) (events : List SearchPublicUpsertV1) (event : SearchPublicUpsertV1) :
    Prop :=
  event.upsertKind = .full ∧ (events.map (targetOf x)).count (targetOf x event) = 1 ∧
    x.docs (targetOf x event) = none

instance (event : SearchPublicUpsertV1) : Decidable (OnBulkPath x events event) :=
  inferInstanceAs (Decidable (_ ∧ _ ∧ _))

def stays (x : Index) (events : List SearchPublicUpsertV1)
    (entry : SearchPublicUpsertV1 × String) : Bool :=
  let counts := fun id => (events.map (targetOf x)).count id
  mustStaySequential counts
    (fun id => if id ∈ (events.map (targetOf x)).filter fun id => counts id = 1 then x.docs id
      else none) entry

theorem stays_iff (mem : event ∈ events) :
    stays x events (event, targetOf x event) = false ↔ OnBulkPath x events event := by
  have counted : 0 < (events.map (targetOf x)).count (targetOf x event) :=
    List.count_pos_iff.mpr (List.mem_map_of_mem mem)
  have kinds : event.upsertKind ≠ .part ↔ event.upsertKind = .full := by
    cases event.upsertKind <;> simp
  unfold stays OnBulkPath mustStaySequential
  rw [← kinds]
  by_cases once : (events.map (targetOf x)).count (targetOf x event) = 1
  · have candidate : targetOf x event ∈ (events.map (targetOf x)).filter fun id =>
        (events.map (targetOf x)).count id = 1 :=
      List.mem_filter.mpr ⟨List.mem_map_of_mem mem, by simpa using once⟩
    simp [candidate, once, -List.mem_filter]
  · have several : 1 < (events.map (targetOf x)).count (targetOf x event) := by omega
    simp [several, once]

variable (time) in
def afterBatch (x : Index) (events : List SearchPublicUpsertV1) : Index :=
  events.foldl (fun y event => batched time (stays x events) y (event, targetOf x event)) x

theorem gives_onUpsertBatch (many : ¬ events.length ≤ 1)
    (given : Gives service (onUpsertBatch time true events) x () y) :
    y = afterBatch time x events := by
  unfold onUpsertBatch at given
  rw [if_neg (by simpa using many), gives_bind] at given
  obtain ⟨ids, z, resolved, given⟩ := given
  unfold Gives at resolved
  rw [run_resolveEach] at resolved
  cases resolved
  rw [gives_bind] at given
  obtain ⟨existingById, z, looked, later⟩ := given
  rw [gives_orBatchError] at looked
  unfold Gives at looked
  simp only [Service.run, undisturbed, Service.suffer, service, Index.answer, Index.onIds] at looked
  split at looked
  · cases looked
  cases looked
  have ordered := gives_writeOrdered (by simp) later
  rw [List.nil_append] at ordered
  have paired : events.zip (events.map (targetOf x)) =
      events.map fun event => (event, targetOf x event) := by
    simpa using List.zip_map' (l := events) (f := id) (g := targetOf x)
  rw [ordered, paired, List.foldl_map]
  rfl

def Elsewhere (id : String) (cached : Option String) : Prop :=
  ∃ other, cached = some other ∧ other ≠ "" ∧ other ≠ id

/-- Where the aliases have changed since the index was `x`, they name other documents than this
one, and there is no document under it. -/
structure Spared (x : Index) (id : String) (y : Index) : Prop where
  absent : y.docs id = none
  aliases : ∀ (a : Alias) key, a.held y key = a.held x key ∨ Elsewhere id (a.held y key)

variable {id : String}

theorem Spared.start (absent : x.docs id = none) : Spared x id x :=
  ⟨absent, fun _ _ => .inl rfl⟩

variable {key : String}

theorem Elsewhere.named {held : String → Option String}
    (elsewhere : Elsewhere id (held key)) :
    ∃ other, named held (some key) = some other ∧ other ≠ id := by
  obtain ⟨other, cached, nonempty, ne⟩ := elsewhere
  exact ⟨other, by simp [IndexWrites.named, cached, filled, nonempty], ne⟩

theorem named_spared (spared : Spared x id y) (a : Alias) (key : Option String) :
    named (a.held y) key = named (a.held x) key ∨
      ∃ other, named (a.held y) key = some other ∧ other ≠ id := by
  cases key with
  | none => exact .inl rfl
  | some key =>
    rcases spared.aliases a key with same | elsewhere
    · exact .inl (by simp [named, same])
    · exact .inr elsewhere.named

theorem targetOf_spared (spared : Spared x id y) (ne : targetOf x event ≠ id) :
    targetOf y event ≠ id := by
  have kept := named_spared spared
  cases known : event.canonicalId with
  | some canonicalId =>
    rw [targetOf_canonical known] at ne ⊢
    rcases kept .canonicalId (some canonicalId) with same | ⟨other, found, differs⟩
    · rwa [same]
    · rwa [found]
  | none =>
    rw [targetOf_uris known] at ne ⊢
    rcases kept .apUri event.apUri with same | ⟨other, found, differs⟩
    · rw [same]
      cases held : named (Alias.apUri.held x) event.apUri with
      | some cached => simpa [held] using ne
      | none =>
        rw [held] at ne
        rcases kept .atUri event.atUri with same | ⟨other, found, differs⟩
        · rwa [same]
        · rwa [found]
    · rwa [found]

theorem held_step (a : Alias) (key : String)
    (fits : event.upsertKind = .part ∨ targetOf y event ≠ "") (ne : targetOf y event ≠ id) :
    a.held (upserted time y event) key = a.held y key ∨
      Elsewhere id (a.held (upserted time y event) key) := by
  by_cases part : event.upsertKind = .part
  · exact .inl (by rw [upserted_part part])
  rw [a.held_upserted part]
  cases a.key event with
  | none => exact .inl rfl
  | some own =>
    unfold boundIf bound
    by_cases same : key = own
    · exact .inr ⟨targetOf y event, by simp [same], fits.resolve_left part, ne⟩
    · exact .inl (by simp [same])

theorem Spared.step (spared : Spared x id y)
    (fits : event.upsertKind = .part ∨ targetOf y event ≠ "") (differs : targetOf y event ≠ id) :
    Spared x id (upserted time y event) := by
  refine ⟨(docs_upserted differs).trans spared.absent, fun a key => ?_⟩
  rcases held_step a key fits differs with same | elsewhere
  · rw [same]
    exact spared.aliases a key
  · exact .inr elsewhere

theorem Spared.run (spared : Spared x id y) (fits : Fits time y events)
    (others : ∀ event ∈ events, targetOf x event ≠ id) :
    Spared x id (events.foldl (upserted time) y) := by
  induction events generalizing y with
  | nil => exact spared
  | cons event rest ih =>
    have differs := targetOf_spared spared (others event List.mem_cons_self)
    exact ih (spared.step fits.1 differs) fits.2 fun other mem => others other (List.mem_cons_of_mem _ mem)

variable {a : Alias}

theorem Elsewhere.run (spared : Spared x id y)
    (elsewhere : Elsewhere id (a.held y key)) (fits : Fits time y events)
    (others : ∀ event ∈ events, targetOf x event ≠ id) :
    Elsewhere id (a.held (events.foldl (upserted time) y) key) := by
  induction events generalizing y with
  | nil => exact elsewhere
  | cons event rest ih =>
    have differs := targetOf_spared spared (others event List.mem_cons_self)
    refine ih (spared.step fits.1 differs) ?_ fits.2 fun other mem =>
      others other (List.mem_cons_of_mem _ mem)
    rcases held_step a key fits.1 differs with same | moved
    · rwa [same]
    · exact moved

theorem elsewhere_of_mem (spared : Spared x id y)
    (fits : Fits time y events) (others : ∀ event ∈ events, targetOf x event ≠ id)
    (mem : event ∈ events) (full : event.upsertKind = .full) (has : a.key event = some key) :
    Elsewhere id (a.held (events.foldl (upserted time) y) key) := by
  induction events generalizing y with
  | nil => cases mem
  | cons head rest ih =>
    have differs := targetOf_spared spared (others head List.mem_cons_self)
    have later := fun other mem => others other (List.mem_cons_of_mem head mem)
    rcases List.mem_cons.mp mem with rfl | mem
    · have own : Elsewhere id (a.held (upserted time y event) key) := by
        have kind : event.upsertKind ≠ .part := by simp [full]
        rw [a.held_upserted kind, has]
        exact ⟨targetOf y event, by simp [boundIf, bound], fits.1.resolve_left kind, differs⟩
      have done := Elsewhere.run (spared.step fits.1 differs) own fits.2 later
      exact done
    · exact ih (spared.step fits.1 differs) fits.2 later mem

theorem held_run
    (without : ∀ event ∈ events, event.upsertKind = .full → a.key event ≠ some key) :
    a.held (events.foldl (upserted time) y) key = a.held y key := by
  induction events generalizing y with
  | nil => rfl
  | cons event rest ih =>
    refine (ih fun other mem => without other (List.mem_cons_of_mem _ mem)).trans ?_
    by_cases part : event.upsertKind = .part
    · rw [upserted_part part]
    have kind : event.upsertKind = .full := by
      cases kind : event.upsertKind with
      | full => rfl
      | part => exact absurd kind part
    have ne := without event List.mem_cons_self kind
    rw [a.held_upserted part]
    cases own : a.key event with
    | none => rfl
    | some other =>
      have differs : key ≠ other := by
        intro same
        exact ne (by rw [own, same])
      simp [boundIf, bound, differs]

/-- No earlier full upsert of the batch has the ActivityPub URI that the event is looked up by or,
unless that is known already, its AT URI. An event with a canonical id is looked up by that. -/
def Unlinked (x : Index) (before : List SearchPublicUpsertV1) (event : SearchPublicUpsertV1) :
    Prop :=
  event.canonicalId = none → ∀ earlier ∈ before, earlier.upsertKind = .full →
    (event.apUri = none ∨ earlier.apUri ≠ event.apUri) ∧
    (named x.byApUri event.apUri ≠ none ∨ event.atUri = none ∨ earlier.atUri ≠ event.atUri)

section Place
variable {before after : List SearchPublicUpsertV1}
  (bulk : OnBulkPath x (before ++ event :: after) event)

include bulk in
theorem others_of_bulk : (∀ other ∈ before, targetOf x other ≠ targetOf x event) ∧
    ∀ other ∈ after, targetOf x other ≠ targetOf x event := by
  have once := bulk.2.1
  simp only [List.map_append, List.map_cons, List.count_append, List.count_cons_self] at once
  constructor
  · intro other mem same
    have counted : 0 < (before.map (targetOf x)).count (targetOf x event) :=
      List.count_pos_iff.mpr (List.mem_map.mpr ⟨other, mem, same⟩)
    omega
  · intro other mem same
    have counted : 0 < (after.map (targetOf x)).count (targetOf x event) :=
      List.count_pos_iff.mpr (List.mem_map.mpr ⟨other, mem, same⟩)
    omega

theorem named_run {a : Alias} {key : Option String}
    (without : ∀ earlier ∈ before, earlier.upsertKind = .full →
      key = none ∨ a.key earlier ≠ key) :
    named (a.held (before.foldl (upserted time) x)) key = named (a.held x) key := by
  cases key with
  | none => rfl
  | some key =>
    unfold named
    rw [Option.bind_some, Option.bind_some, held_run]
    intro earlier mem full
    exact (without earlier mem full).resolve_left (by simp)

include bulk in
theorem targetOf_unlinked (unlinked : Unlinked x before event) :
    targetOf (before.foldl (upserted time) x) event = targetOf x event := by
  obtain ⟨earlierOthers, -⟩ := others_of_bulk bulk
  cases known : event.canonicalId with
  | some canonicalId =>
    have without : ∀ earlier ∈ before, earlier.upsertKind = .full →
        some canonicalId = none ∨ Alias.canonicalId.key earlier ≠ some canonicalId := by
      intro earlier mem full
      refine .inr fun same => earlierOthers earlier mem ?_
      rw [targetOf_canonical known, targetOf_canonical same]
    rw [targetOf_canonical known, targetOf_canonical known, named_run without]
  | none =>
    have apart := unlinked known
    rw [targetOf_uris known, targetOf_uris known,
      named_run fun earlier mem full => (apart earlier mem full).1]
    cases held : named (Alias.apUri.held x) event.apUri with
    | some cached => rfl
    | none =>
      rw [Option.getD_none, Option.getD_none, named_run]
      intro earlier mem full
      exact (apart earlier mem full).2.resolve_left fun differs => differs held

include bulk in
theorem unlinked_of_same (fits : Fits time x before)
    (same : targetOf (before.foldl (upserted time) x) event = targetOf x event) :
    Unlinked x before event := by
  obtain ⟨earlierOthers, -⟩ := others_of_bulk bulk
  have spared := Spared.start bulk.2.2
  intro unknown earlier mem full
  have target := (targetOf_uris unknown).symm.trans same
  have moved : ∀ (a : Alias), a.key event ≠ none → a.key earlier = a.key event →
      ∃ other, named (a.held (before.foldl (upserted time) x)) (a.key event) = some other ∧
        other ≠ targetOf x event := by
    intro a has own
    obtain ⟨key, known⟩ := Option.ne_none_iff_exists'.mp has
    rw [known] at own ⊢
    exact (elsewhere_of_mem spared fits earlierOthers mem full own).named
  constructor
  · by_cases has : event.apUri = none
    · exact .inl has
    refine .inr fun own => ?_
    obtain ⟨other, found, differs⟩ := moved .apUri has own
    rw [show event.apUri = Alias.apUri.key event from rfl, found] at target
    exact differs target
  · by_cases fresh : named x.byApUri event.apUri = none
    · by_cases has : event.atUri = none
      · exact .inr (.inl has)
      refine .inr (.inr fun own => ?_)
      obtain ⟨other, found, differs⟩ := moved .atUri has own
      rw [show event.atUri = Alias.atUri.key event from rfl, found] at target
      rcases named_spared (spared.run fits earlierOthers) .apUri event.apUri with kept | ⟨ap, held, ne⟩
      · rw [kept, show named (Alias.apUri.held x) event.apUri = none from fresh] at target
        exact differs target
      · rw [held] at target
        exact ne target
    · exact .inl fresh

include bulk in
theorem absent_of_moved (fits : Fits time x (before ++ event :: after))
    (moved : targetOf (before.foldl (upserted time) x) event ≠ targetOf x event) :
    ((before ++ event :: after).foldl (upserted time) x).docs (targetOf x event) = none := by
  obtain ⟨earlierOthers, laterOthers⟩ := others_of_bulk bulk
  obtain ⟨fitsBefore, fitsEvent, fitsAfter⟩ := fits_append fits
  have spared := (Spared.start bulk.2.2).run fitsBefore earlierOthers
  rw [List.foldl_append]
  exact ((spared.step fitsEvent moved).run fitsAfter laterOthers).absent

end Place

theorem docs_upsert_isSome {doc : PublicContentDocument} {other : String}
    (held : (y.docs id).isSome) : ((y.upsert other doc).docs id).isSome := by
  unfold Index.upsert bound
  by_cases same : id = other
  · simp [same]
  · simpa [same] using held

theorem docs_batched_isSome
    {entry : SearchPublicUpsertV1 × String} (held : (y.docs id).isSome) :
    ((batched time sequential y entry).docs id).isSome := by
  unfold batched upserted planted
  simp only []
  split
  · split
    · exact held
    split
    · exact held
    · exact docs_upsert_isSome held
  · exact docs_upsert_isSome held

theorem docs_afterBatch (mem : event ∈ events) (bulk : OnBulkPath x events event) :
    ((afterBatch time x events).docs (targetOf x event)).isSome := by
  obtain ⟨before, after, rfl⟩ := List.append_of_mem mem
  unfold afterBatch
  rw [List.foldl_append, List.foldl_cons]
  generalize List.foldl _ x before = y
  have written : ((batched time (stays x (before ++ event :: after)) y
      (event, targetOf x event)).docs (targetOf x event)).isSome := by
    have fast := (stays_iff mem).mpr bulk
    simp [batched, fast, planted, published, Index.upsert, bound]
  generalize batched time _ y (event, targetOf x event) = z at written
  generalize stays x (before ++ event :: after) = sequential
  clear mem bulk
  induction after generalizing z with
  | nil => exact written
  | cons other rest ih => exact ih _ (docs_batched_isSome written)

theorem batched_agrees {before after : List SearchPublicUpsertV1}
    (fits : Fits time x (before ++ event :: after))
    (unlinked : OnBulkPath x (before ++ event :: after) event → Unlinked x before event) :
    batched time (stays x (before ++ event :: after)) (before.foldl (upserted time) x)
      (event, targetOf x event) = upserted time (before.foldl (upserted time) x) event := by
  have mem : event ∈ before ++ event :: after := by simp
  unfold batched
  by_cases bulk : OnBulkPath x (before ++ event :: after) event
  · have same : targetOf (before.foldl (upserted time) x) event = targetOf x event :=
      targetOf_unlinked bulk (unlinked bulk)
    have spared := (Spared.start bulk.2.2).run (fits_append fits).1 (others_of_bulk bulk).1
    have full : event.upsertKind ≠ .part := by simp [bulk.1]
    have absent := spared.absent
    rw [(stays_iff mem).mpr bulk, if_neg (by simp)]
    generalize before.foldl (upserted time) x = y at same absent ⊢
    unfold upserted planted
    simp [full, same, absent, skips]
  · have ordered : stays x (before ++ event :: after) (event, targetOf x event) = true := by
      simpa using mt (stays_iff mem).mp bulk
    rw [ordered, if_pos rfl]

def AllUnlinked (x : Index) (events : List SearchPublicUpsertV1) : Prop :=
  ∀ before event after, events = before ++ event :: after → OnBulkPath x events event →
    Unlinked x before event

theorem afterBatch_agrees (fits : Fits time x events) (unlinked : AllUnlinked x events) :
    afterBatch time x events = events.foldl (upserted time) x := by
  have each : ∀ before rest, events = before ++ rest →
      rest.foldl (fun y event => batched time (stays x events) y (event, targetOf x event))
        (before.foldl (upserted time) x) = rest.foldl (upserted time) (before.foldl (upserted time) x) := by
    intro before rest split
    induction rest generalizing before with
    | nil => rfl
    | cons event rest ih =>
      have one : batched time (stays x events) (before.foldl (upserted time) x)
          (event, targetOf x event) = upserted time (before.foldl (upserted time) x) event := by
        subst split
        exact batched_agrees fits (unlinked before event rest rfl)
      have next := ih (before ++ [event]) (by simp [split])
      rw [List.foldl_append, List.foldl_cons, List.foldl_nil] at next
      rw [List.foldl_cons, one]
      exact next
  exact each [] events rfl

theorem allUnlinked_of_agrees (fits : Fits time x events)
    (same : afterBatch time x events = events.foldl (upserted time) x) : AllUnlinked x events := by
  intro before event after split bulk
  subst split
  by_contra linked
  have moved := mt (unlinked_of_same bulk (fits_append fits).1) linked
  have absent := absent_of_moved bulk fits moved
  have written : ((afterBatch time x (before ++ event :: after)).docs
      (targetOf x event)).isSome := docs_afterBatch (by simp) bulk
  rw [same, absent] at written
  cases written

/-- A batch and its events one by one leave the same documents and aliases exactly when the batch
is not written in bulk, or no event on the bulk path is looked up by a URI that an earlier full
upsert of the batch has. -/
theorem batch_agrees_iff {bulk : Bool}
    (batch : (service.run undisturbed (onUpsertBatch time bulk events) x).1 = .ok ())
    (each : (service.run undisturbed (inOrder time events) x).1 = .ok ()) :
    (service.run undisturbed (onUpsertBatch time bulk events) x).2 =
        (service.run undisturbed (inOrder time events) x).2 ↔
      events.length ≤ 1 ∨ bulk = false ∨ AllUnlinked x events := by
  have given : Gives service (inOrder time events) x ()
      (service.run undisturbed (inOrder time events) x).2 := Prod.ext each rfl
  obtain ⟨fits, ordered⟩ := gives_inOrder.mp given
  rw [ordered]
  by_cases sequential : events.length ≤ 1 ∨ bulk = false
  · have written : Gives service (upsertEach time 0 events) x ()
        (service.run undisturbed (onUpsertBatch time bulk events) x).2 := by
      have path : onUpsertBatch time bulk events = upsertEach time 0 events := by
        unfold onUpsertBatch
        rw [if_pos (by simpa using sequential)]
      rw [path] at batch ⊢
      exact Prod.ext batch rfl
    have same := (gives_inOrder.mp (gives_upsertEach.mp written)).2
    rw [same]
    refine iff_of_true rfl ?_
    rcases sequential with short | none
    · exact .inl short
    · exact .inr (.inl none)
  · obtain ⟨many, store⟩ := not_or.mp sequential
    have on : bulk = true := by simpa using store
    subst on
    have written : Gives service (onUpsertBatch time true events) x ()
        (service.run undisturbed (onUpsertBatch time true events) x).2 := Prod.ext batch rfl
    rw [gives_onUpsertBatch many written]
    constructor
    · intro same
      exact .inr (.inr (allUnlinked_of_agrees fits same))
    · intro unlinked
      exact afterBatch_agrees fits ((unlinked.resolve_left many).resolve_left store)

def noteUpsert (stableDocId : String) (canonicalContentId : Option String) (objectUri : String) :
    SearchPublicUpsertV1 where
  upsertKind := .full
  stableDocId := stableDocId
  canonicalContentId := canonicalContentId
  protocolSource := .ap
  sourceKind := if canonicalContentId.isSome then .localSource else .remoteSource
  apRef := some ⟨objectUri, none⟩
  atRef := none
  author := ⟨none, none, none, none⟩
  content := ⟨"hello", "2026-08-22T00:00:00.000Z", none, none, none⟩
  relations := none
  media := none

theorem batch_agrees_iff_notes :
    let events := [noteUpsert "ap:u" none "u", noteUpsert "ap:v" none "v"]
    (service.run undisturbed (onUpsertBatch (fun _ => none) true events) Index.empty).2 =
        (service.run undisturbed (inOrder (fun _ => none) events) Index.empty).2 ↔
      events.length ≤ 1 ∨ true = false ∨ AllUnlinked Index.empty events :=
  batch_agrees_iff rfl rfl

/-- A local note and a second report of it by its URI alone: the ordered path leaves one document,
the batch leaves two. -/
theorem batch_of_linked_upserts :
    let events := [noteUpsert "c" (some "c") "u", noteUpsert "ap:u" none "u"]
    let ordered := service.run undisturbed (inOrder (fun _ => none) events) Index.empty
    let batch := service.run undisturbed (onUpsertBatch (fun _ => none) true events) Index.empty
    ordered.1 = .ok () ∧ batch.1 = .ok () ∧ ordered.2 ≠ batch.2 ∧
      (ordered.2.docs "c").isSome ∧ ordered.2.docs "ap:u" = none ∧
      (batch.2.docs "c").isSome ∧ (batch.2.docs "ap:u").isSome := by
  intro events ordered batch
  have absent : ordered.2.docs "ap:u" = none := rfl
  have written : (batch.2.docs "ap:u").isSome := rfl
  refine ⟨rfl, rfl, ?_, rfl, absent, rfl, written⟩
  intro same
  rw [← same, absent] at written
  cases written

end MastopodFederation.Guarantees.BulkWrites
