import MastopodFederation.Source.ProtocolBridgeRuntime

/-!
# Redelivered local events

The bridge takes the dedup marker of a local event before it projects the event.
While keys do not expire, the first delivery of an outbox intent is the only one that
calls `process`: nothing is projected twice, but an event whose first projection
failed is not projected again, and its offset is resolved as if it were.
-/
namespace MastopodFederation.Guarantees.BridgeRedelivery
open Lib.LuaTable Source.Retry Source.ProtocolBridgeRuntime

variable {rt : Runtime} {memory : Memory} {id : String} {d : Delivery}

theorem dropWhile_of_prefix {p : Char → Bool} {part text : List Char}
    (initial : part <+: text.dropWhile p) : part.dropWhile p = part := by
  obtain ⟨rest, same⟩ := initial
  cases part with
  | nil => rfl
  | cons c tail =>
    have first : (text.dropWhile p).head? = some c := by rw [← same]; rfl
    have kept := List.head?_dropWhile_not p text
    rw [first] at kept
    simp [kept]

theorem trim_trim (text : String) : trim (trim text) = trim text := by
  unfold trim
  rw [String.toList_ofList, dropWhile_of_prefix (List.rdropWhile_prefix _ _),
    List.rdropWhile_idempotent]

def intentOf (event : Json) : Option String :=
  (unwrapApSourceEvent event).bind ApSourceWrapper.outboxIntentId

def LocalEvent (event : Json) (id : String) : Prop :=
  ∃ parsed, unwrapApSourceEvent event = some parsed ∧ parsed.outboxIntentId = some id ∧
    isMirroredFromAt parsed.bridge = false

def Completes (handled : Handled) : Prop := handled.called.isSome ∧ handled.outcome = .ok ()

def KeyLasts (ttlSeconds : Int) (earlier later : Delivery) : Prop :=
  later.clock.pruneAt < earlier.clock.claimAt + ttlMs ttlSeconds ∧
    later.clock.claimAt < earlier.clock.claimAt + ttlMs ttlSeconds

instance (ttlSeconds : Int) (earlier later : Delivery) :
    Decidable (KeyLasts ttlSeconds earlier later) :=
  inferInstanceAs (Decidable (_ ∧ _))

theorem normal_of_extract {event : Entries} (extracted : extractOutboxIntentId event = some id) :
    trim id = id ∧ id ≠ "" := by
  unfold extractOutboxIntentId at extracted
  split at extracted
  next raw found =>
    split at extracted
    · cases extracted
    next filled =>
      cases extracted
      exact ⟨trim_trim raw, filled⟩
  · cases extracted

variable {parsed : ApSourceWrapper}

theorem normal_of_unwrap {event : Json} (unwrapped : unwrapApSourceEvent event = some parsed)
    (carries : parsed.outboxIntentId = some id) : trim id = id ∧ id ≠ "" := by
  unfold unwrapApSourceEvent at unwrapped
  split at unwrapped
  next candidate =>
    split at unwrapped
    next activity found =>
      cases unwrapped
      exact normal_of_extract carries
    · split at unwrapped
      · cases unwrapped
        exact normal_of_extract carries
      · cases unwrapped
  · cases unwrapped

def Unpruned (memory : Memory) (id : String) (now : Nat) : Prop := prune now memory id = memory id

theorem unpruned_of_free (free : memory id = none) (now : Nat) : Unpruned memory id now := by
  simp [Unpruned, prune, free]

variable {expiresAt : Nat}

theorem unpruned_of_held {now : Nat} (held : memory id = some expiresAt)
    (live : now < expiresAt) : Unpruned memory id now := by
  simp [Unpruned, prune, held, live]

section Claims
variable (ttlSeconds : Int) (clock : Readings) {intentId : String} {expiresAt : Nat}

theorem claim_free (normal : trim id = id ∧ id ≠ "") (free : memory id = none) :
    claim ttlSeconds clock memory id =
      (true, setExpiry (prune clock.pruneAt memory) id (clock.claimAt + ttlMs ttlSeconds)) := by
  have unpruned : prune clock.pruneAt memory id = none := by
    rw [unpruned_of_free free clock.pruneAt, free]
  simp [claim, normal, unpruned, isLive]

theorem claim_held (normal : trim id = id ∧ id ≠ "") (held : memory id = some expiresAt)
    (unpruned : clock.pruneAt < expiresAt) (live : clock.claimAt < expiresAt) :
    claim ttlSeconds clock memory id = (false, prune clock.pruneAt memory) := by
  have kept : prune clock.pruneAt memory id = some expiresAt := by
    rw [unpruned_of_held held unpruned, held]
  have positive : expiresAt ≠ 0 := by omega
  simp [claim, normal, kept, isLive, positive, live]

theorem claim_taken (normal : trim id = id ∧ id ≠ "")
    (taken : (claim ttlSeconds clock memory id).1 = true) :
    (claim ttlSeconds clock memory id).2 id = some (clock.claimAt + ttlMs ttlSeconds) := by
  unfold claim at taken ⊢
  dsimp only at taken ⊢
  rw [normal.1, if_neg normal.2] at taken ⊢
  split at taken
  · cases taken
  next free =>
    rw [if_neg free]
    exact if_pos rfl

theorem claim_other (different : trim intentId ≠ id)
    (unpruned : Unpruned memory id clock.pruneAt) :
    (claim ttlSeconds clock memory intentId).2 id = memory id := by
  unfold claim
  dsimp only
  split
  · rfl
  · split
    · exact unpruned
    · change (if id = trim intentId then _ else _) = _
      rw [if_neg (Ne.symm different)]
      exact unpruned

end Claims

theorem handle_other (different : intentOf d.event ≠ some id)
    (unpruned : Unpruned memory id d.clock.pruneAt) :
    (handleApSourceEvent rt memory d).2 id = memory id := by
  have claimed (parsed : ApSourceWrapper) (unwrapped : unwrapApSourceEvent d.event = some parsed) :
      (claimOutboxIntent rt d.clock memory parsed.outboxIntentId).2 id = memory id := by
    cases carried : parsed.outboxIntentId with
    | none => rfl
    | some other =>
      have normal := normal_of_unwrap unwrapped carried
      apply claim_other _ _ _ unpruned
      rw [normal.1]
      intro same
      rw [intentOf, unwrapped, Option.bind_some, carried, same] at different
      exact different rfl
  unfold handleApSourceEvent
  split
  · rfl
  · split
    · rfl
    next parsed unwrapped =>
      have kept := claimed parsed unwrapped
      dsimp only
      split
      · exact kept
      · split
        · exact kept
        · exact kept

section Carried
variable {parsed : ApSourceWrapper} (worker : rt.apToAtWorker = true)
  (unwrapped : unwrapApSourceEvent d.event = some parsed)
  (carried : parsed.outboxIntentId = some id)
include worker unwrapped carried

theorem handle_free (free : memory id = none) :
    (handleApSourceEvent rt memory d).2 id = some (d.clock.claimAt + ttlMs rt.ttlSeconds) ∧
      (isMirroredFromAt parsed.bridge = false →
        (handleApSourceEvent rt memory d).1 = ⟨some parsed.activity, d.processing⟩) := by
  have claimed := claim_free rt.ttlSeconds d.clock (normal_of_unwrap unwrapped carried) free
  cases mirrored : isMirroredFromAt parsed.bridge with
  | true =>
    simp [handleApSourceEvent, worker, unwrapped, carried, claimOutboxIntent, claimed, mirrored,
      setExpiry]
  | false =>
    simp [handleApSourceEvent, worker, unwrapped, carried, claimOutboxIntent, claimed, mirrored,
      setExpiry]

theorem handle_held {expiresAt : Nat} (held : memory id = some expiresAt)
    (unpruned : d.clock.pruneAt < expiresAt) (live : d.clock.claimAt < expiresAt) :
    (handleApSourceEvent rt memory d).2 id = some expiresAt ∧
      (handleApSourceEvent rt memory d).1 = skipped := by
  have claimed :=
    claim_held rt.ttlSeconds d.clock (normal_of_unwrap unwrapped carried) held unpruned live
  have kept := unpruned_of_held held unpruned
  unfold Unpruned at kept
  simp [handleApSourceEvent, worker, unwrapped, carried, claimOutboxIntent, claimed, kept, held]

end Carried

theorem handle_keeps (held : memory id = some expiresAt)
    (unpruned : d.clock.pruneAt < expiresAt) (live : d.clock.claimAt < expiresAt) :
    (handleApSourceEvent rt memory d).2 id = some expiresAt := by
  by_cases carries : rt.apToAtWorker = true ∧ intentOf d.event = some id
  · obtain ⟨worker, carries⟩ := carries
    obtain ⟨parsed, unwrapped, carried⟩ := Option.bind_eq_some_iff.mp carries
    exact (handle_held worker unwrapped carried held unpruned live).1
  · by_cases worker : rt.apToAtWorker = true
    · have different : intentOf d.event ≠ some id := fun same => carries ⟨worker, same⟩
      rw [handle_other different (unpruned_of_held held unpruned), held]
    · simp [handleApSourceEvent, worker, held]

theorem memoryAfter_cons (d : Delivery) (rest : List Delivery) :
    memoryAfter rt memory (d :: rest) =
      memoryAfter rt (handleApSourceEvent rt memory d).2 rest := rfl

theorem memoryAfter_append (first second : List Delivery) :
    memoryAfter rt memory (first ++ second) = memoryAfter rt (memoryAfter rt memory first) second :=
  List.foldl_append

variable {deliveries : List Delivery}

theorem memoryAfter_free (free : memory id = none)
    (others : ∀ d ∈ deliveries, intentOf d.event ≠ some id) :
    memoryAfter rt memory deliveries id = none := by
  induction deliveries generalizing memory with
  | nil => exact free
  | cons d rest ih =>
    obtain ⟨different, others⟩ := List.forall_mem_cons.mp others
    rw [memoryAfter_cons]
    apply ih _ others
    rw [handle_other different (unpruned_of_free free _), free]

theorem memoryAfter_held (held : memory id = some expiresAt)
    (lasts : ∀ d ∈ deliveries, d.clock.pruneAt < expiresAt ∧ d.clock.claimAt < expiresAt) :
    memoryAfter rt memory deliveries id = some expiresAt := by
  induction deliveries generalizing memory with
  | nil => exact held
  | cons d rest ih =>
    obtain ⟨⟨unpruned, live⟩, lasts⟩ := List.forall_mem_cons.mp lasts
    exact ih (handle_keeps held unpruned live) lasts

theorem memoryAfter_carried (worker : rt.apToAtWorker = true)
    (free : memory id = none) (lasts : deliveries.Pairwise (KeyLasts rt.ttlSeconds))
    (carried : ∃ d ∈ deliveries, intentOf d.event = some id) : ∃ d ∈ deliveries,
      memoryAfter rt memory deliveries id = some (d.clock.claimAt + ttlMs rt.ttlSeconds) := by
  induction deliveries generalizing memory with
  | nil => obtain ⟨d, ⟨⟩, -⟩ := carried
  | cons first rest ih =>
    obtain ⟨lastsFirst, lasts⟩ := List.pairwise_cons.mp lasts
    by_cases same : intentOf first.event = some id
    · obtain ⟨parsed, unwrapped, carries⟩ := Option.bind_eq_some_iff.mp same
      refine ⟨first, List.mem_cons_self, ?_⟩
      rw [memoryAfter_cons]
      exact memoryAfter_held (handle_free worker unwrapped carries free).1 lastsFirst
    · have still : (handleApSourceEvent rt memory first).2 id = none := by
        rw [handle_other same (unpruned_of_free free _), free]
      obtain ⟨d, listed, carries⟩ := carried
      rcases List.mem_cons.mp listed with rfl | listed
      · exact absurd carries same
      · obtain ⟨d, listed, held⟩ := ih still lasts ⟨d, listed, carries⟩
        exact ⟨d, List.mem_cons_of_mem _ listed, held⟩

theorem handle_called (unwrapped : unwrapApSourceEvent d.event = some parsed)
    (carried : parsed.outboxIntentId = some id)
    (called : (handleApSourceEvent rt memory d).1.called ≠ none) :
    (handleApSourceEvent rt memory d).2 id = some (d.clock.claimAt + ttlMs rt.ttlSeconds) := by
  have taken := @claim_taken memory id rt.ttlSeconds d.clock (normal_of_unwrap unwrapped carried)
  unfold handleApSourceEvent at called ⊢
  rw [unwrapped] at called ⊢
  dsimp only at called ⊢
  rw [carried, claimOutboxIntent] at called ⊢
  generalize claim rt.ttlSeconds d.clock memory id = result at called taken ⊢
  obtain ⟨claimed, after⟩ := result
  cases worker : rt.apToAtWorker with
  | false => simp [worker, skipped] at called
  | true =>
    cases claimed with
    | false => simp [worker, skipped] at called
    | true =>
      cases mirrored : isMirroredFromAt parsed.bridge with
      | true => simp [worker, mirrored, skipped] at called
      | false => simpa using taken rfl

/-- The last delivery of an event completes, and no delivery of its id calls `process`
after one that completed. -/
structure NeverLost (rt : Runtime) (memory : Memory) (id : String) (before : List Delivery)
    (last : Delivery) (after : List Delivery) : Prop where
  completes : Completes (handleApSourceEvent rt (memoryAfter rt memory before) last).1
  never_again : ∀ earlier first between later rest,
    before ++ last :: after = earlier ++ first :: (between ++ later :: rest) →
    intentOf first.event = some id → intentOf later.event = some id →
    Completes (handleApSourceEvent rt (memoryAfter rt memory earlier) first).1 →
    (handleApSourceEvent rt (memoryAfter rt memory (earlier ++ first :: between)) later).1.called =
      none

theorem completes_iff {before : List Delivery} {last : Delivery} (worker : rt.apToAtWorker = true)
    (free : memory id = none) (isLocal : LocalEvent last.event id)
    (succeeds : last.processing = .ok ())
    (lasts : (before ++ [last]).Pairwise (KeyLasts rt.ttlSeconds)) :
    Completes (handleApSourceEvent rt (memoryAfter rt memory before) last).1 ↔
      ∀ d ∈ before, intentOf d.event ≠ some id := by
  obtain ⟨parsed, unwrapped, carried, unmirrored⟩ := isLocal
  obtain ⟨lastsBefore, -, toLast⟩ := List.pairwise_append.mp lasts
  constructor
  · intro completes d listed carries
    obtain ⟨first, listed, held⟩ :=
      memoryAfter_carried worker free lastsBefore ⟨d, listed, carries⟩
    obtain ⟨unpruned, live⟩ := toLast first listed last List.mem_cons_self
    have skips := (handle_held worker unwrapped carried held unpruned live).2
    rw [skips] at completes
    exact absurd completes.1 (by decide)
  · intro others
    have stillFree : memoryAfter rt memory before id = none := memoryAfter_free free others
    rw [(handle_free worker unwrapped carried stillFree).2 unmirrored, succeeds]
    exact ⟨rfl, rfl⟩

theorem called_once {first later : Delivery} {between : List Delivery}
    (worker : rt.apToAtWorker = true) (carriesFirst : intentOf first.event = some id)
    (carriesLater : intentOf later.event = some id)
    (called : (handleApSourceEvent rt memory first).1.called ≠ none)
    (lasts : ∀ d ∈ between ++ [later], KeyLasts rt.ttlSeconds first d) :
    (handleApSourceEvent rt (memoryAfter rt memory (first :: between)) later).1.called = none := by
  obtain ⟨parsedFirst, unwrappedFirst, carriedFirst⟩ := Option.bind_eq_some_iff.mp carriesFirst
  obtain ⟨parsed, unwrapped, carried⟩ := Option.bind_eq_some_iff.mp carriesLater
  have held : memoryAfter rt memory (first :: between) id =
      some (first.clock.claimAt + ttlMs rt.ttlSeconds) := by
    apply memoryAfter_held (handle_called unwrappedFirst carriedFirst called)
    intro d listed
    exact lasts d (List.mem_append_left _ listed)
  obtain ⟨unpruned, live⟩ := lasts later (List.mem_append_right _ List.mem_cons_self)
  rw [(handle_held worker unwrapped carried held unpruned live).2]
  rfl

/-- Over every run in which keys last, starting where the id is free: nothing is repeated,
and the last of an event's deliveries completes exactly if it is the first one too. -/
theorem never_lost_iff {before after : List Delivery} {last : Delivery}
    (worker : rt.apToAtWorker = true) (free : memory id = none)
    (isLocal : LocalEvent last.event id) (succeeds : last.processing = .ok ())
    (lasts : (before ++ last :: after).Pairwise (KeyLasts rt.ttlSeconds)) :
    NeverLost rt memory id before last after ↔ ∀ d ∈ before, intentOf d.event ≠ some id := by
  have untilLast : (before ++ [last]).Pairwise (KeyLasts rt.ttlSeconds) := by
    have sub : List.Sublist (before ++ [last]) (before ++ last :: after) :=
      (List.Sublist.refl before).append (List.cons_sublist_cons.mpr (List.nil_sublist after))
    exact List.Pairwise.sublist sub lasts
  have completes := completes_iff worker free isLocal succeeds untilLast
  constructor
  · intro kept
    exact completes.mp kept.completes
  · intro others
    refine ⟨completes.mpr others, ?_⟩
    intro earlier first between later rest split carriesFirst carriesLater completed
    rw [split] at lasts
    have fromFirst := (List.pairwise_cons.mp (List.pairwise_append.mp lasts).2.1).1
    rw [memoryAfter_append]
    apply called_once worker carriesFirst carriesLater (Option.isSome_iff_ne_none.mp completed.1)
    intro d listed
    apply fromFirst
    rcases List.mem_append.mp listed with listed | listed
    · exact List.mem_append_left _ listed
    · rw [List.mem_singleton.mp listed]
      exact List.mem_append_right _ List.mem_cons_self

def localEvent : Json :=
  .obj [("activity", .obj [("type", .str "Create")]), ("outboxIntentId", .str "intent-1")]

def timeoutError : Thrown := .object { message := some "Request timeout" }

def failedDelivery : Delivery := ⟨localEvent, ⟨1000, 1000⟩, .error timeoutError⟩

def redelivery : Delivery := ⟨localEvent, ⟨2000, 2000⟩, .ok ()⟩

def weekLongRuntime : Runtime := ⟨true, 604800⟩

theorem local_localEvent : LocalEvent localEvent "intent-1" :=
  ⟨_, rfl, by decide +kernel, rfl⟩

/-- The first projection times out, and the redelivered event is skipped. -/
theorem redelivery_skipped :
    LocalEvent redelivery.event "intent-1" ∧ failedDelivery.event = redelivery.event ∧
      failedDelivery.processing = .error timeoutError ∧ redelivery.processing = .ok () ∧
      [failedDelivery, redelivery].Pairwise (KeyLasts weekLongRuntime.ttlSeconds) ∧
      ¬ NeverLost weekLongRuntime (fun _ => none) "intent-1" [failedDelivery] redelivery [] := by
  refine ⟨local_localEvent, rfl, rfl, rfl, by decide, ?_⟩
  intro kept
  exact absurd kept.completes.1 (by decide +kernel)

theorem first_delivery_projected :
    NeverLost weekLongRuntime (fun _ => none) "intent-1" [] redelivery [redelivery] :=
  (never_lost_iff rfl rfl local_localEvent rfl (by decide)).mpr
    fun _ listed => absurd listed List.not_mem_nil

end MastopodFederation.Guarantees.BridgeRedelivery
