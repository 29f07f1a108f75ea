import MastopodFederation.Source.FirehoseCursorStore
import Mathlib.Data.List.Induction

/-!
# What the two cursor stores answer

Both stores are compared with one log: the appended events by sequence number, and
the largest number of them. The Redis store always reads from that log and the
in-memory store always has its largest number; the in-memory reads and the Redis
latest number are those of the log exactly where the appends came in order.
-/
namespace MastopodFederation.Guarantees.CursorStoreLog
open Source.FirehoseCursorStore

abbrev bySeq (e f : FirehoseEventEnvelope) : Prop := e.seq ≤ f.seq

def InOrder (log : List FirehoseEventEnvelope) : Prop := log.Pairwise fun e f => e.seq < f.seq

instance (log : List FirehoseEventEnvelope) : Decidable (InOrder log) :=
  inferInstanceAs (Decidable (log.Pairwise _))

namespace Log

def readFrom (log : List FirehoseEventEnvelope) (cursorExclusive limit : Int) :
    List FirehoseEventEnvelope :=
  ((log.insertionSort bySeq).filter fun e => cursorExclusive < e.seq).take limit.toNat

def latestSeq (log : List FirehoseEventEnvelope) : Nat := (log.map (·.seq)).foldr max 0

end Log

def inMemoryAfter (log : List FirehoseEventEnvelope) : InMemoryAtFirehoseCursorStore :=
  log.foldl .append .empty

def redisAfter (maxEvents : Nat) (log : List FirehoseEventEnvelope) :
    RedisAtFirehoseCursorStore :=
  log.foldl .append (.empty maxEvents)

/-- Both stores answer as the log does, and a publisher that starts on either of them
assigns a new number. -/
structure AnswersAsOneLog (maxEvents : Nat) (log : List FirehoseEventEnvelope) : Prop where
  inMemory_reads : ∀ cursorExclusive limit,
    (inMemoryAfter log).readFrom cursorExclusive limit = Log.readFrom log cursorExclusive limit
  redis_reads : ∀ cursorExclusive limit,
    (redisAfter maxEvents log).readFrom cursorExclusive limit =
      Log.readFrom log cursorExclusive limit
  inMemory_latest : (inMemoryAfter log).latestSeq = Log.latestSeq log
  redis_latest : (redisAfter maxEvents log).latestSeq = Log.latestSeq log
  inMemory_restart : ∀ e ∈ log,
    e.seq < nextSeq (initialSeqCounter (inMemoryAfter log).latestSeq)
  redis_restart : ∀ e ∈ log,
    e.seq < nextSeq (initialSeqCounter (redisAfter maxEvents log).latestSeq)

section Log
variable {log others : List FirehoseEventEnvelope} {e f : FirehoseEventEnvelope}

theorem InOrder.le (inOrder : InOrder log) : log.Pairwise bySeq :=
  inOrder.imp fun below => Nat.le_of_lt below

theorem InOrder.ext (same : log.Perm others) (inOrder : InOrder log) (sorted : InOrder others) :
    log = others := by
  apply same.eq_of_pairwise _ inOrder sorted
  intro e f _ _ below above
  exact absurd above (Nat.lt_asymm below)

theorem inOrder_of_le (sorted : log.Pairwise bySeq) (distinct : (log.map (·.seq)).Nodup) :
    InOrder log := by
  have apart : log.Pairwise fun e f => e.seq ≠ f.seq := List.pairwise_map.mp distinct
  exact sorted.imp₂ (fun e f below other => Nat.lt_of_le_of_ne below other) apart

theorem inOrder_insertionSort (distinct : (log.map (·.seq)).Nodup) :
    InOrder (log.insertionSort bySeq) := by
  apply inOrder_of_le (List.pairwise_insertionSort bySeq log)
  exact ((List.perm_insertionSort bySeq log).map (·.seq)).nodup_iff.mpr distinct

theorem insertionSort_inOrder (inOrder : InOrder log) :
    (log.insertionSort bySeq) = log :=
  inOrder.le.insertionSort_eq

theorem le_latestSeq (listed : e ∈ log) : e.seq ≤ Log.latestSeq log := by
  induction log with
  | nil => nomatch listed
  | cons f rest ih =>
    change e.seq ≤ max f.seq (Log.latestSeq rest)
    rcases List.mem_cons.mp listed with rfl | later
    · omega
    · have := ih later
      omega

theorem latestSeq_append :
    Log.latestSeq (log ++ [e]) = max (Log.latestSeq log) e.seq := by
  induction log with
  | nil => simp [Log.latestSeq]
  | cons f rest ih =>
    change max f.seq (Log.latestSeq (rest ++ [e])) = max (max f.seq (Log.latestSeq rest)) e.seq
    rw [ih]
    omega

theorem inOrder_append : InOrder (log ++ [e]) ↔ InOrder log ∧ ∀ f ∈ log, f.seq < e.seq := by
  simp [InOrder, List.pairwise_append]

theorem latestSeq_inOrder (inOrder : InOrder log) :
    Log.latestSeq log = (log.getLast?.map (·.seq)).getD 0 := by
  induction log using List.reverseRecOn with
  | nil => rfl
  | append_singleton rest e ih =>
    obtain ⟨sorted, below⟩ := inOrder_append.mp inOrder
    have least : Log.latestSeq rest ≤ e.seq := by
      rw [ih sorted]
      cases last : rest.getLast? with
      | none => simp
      | some f => exact Nat.le_of_lt (below f (List.mem_of_getLast? last))
    rw [latestSeq_append, List.getLast?_append]
    simpa using least

end Log

theorem inMemoryAfter_append (log : List FirehoseEventEnvelope) (e : FirehoseEventEnvelope) :
    inMemoryAfter (log ++ [e]) = (inMemoryAfter log).append e := by
  simp [inMemoryAfter]

theorem inMemoryAfter_eq (log : List FirehoseEventEnvelope) :
    inMemoryAfter log = ⟨log, Log.latestSeq log⟩ := by
  induction log using List.reverseRecOn with
  | nil => rfl
  | append_singleton rest e ih =>
    rw [inMemoryAfter_append, ih, latestSeq_append]
    simp only [InMemoryAtFirehoseCursorStore.append, InMemoryAtFirehoseCursorStore.mk.injEq,
      true_and]
    split <;> omega

variable {log : List FirehoseEventEnvelope}

theorem drop_findIdx (inOrder : InOrder log) (cursor : Int) :
    (match log.findIdx? fun e => cursor < e.seq with
      | none => []
      | some start => log.drop start) = log.filter fun e => cursor < e.seq := by
  induction log with
  | nil => rfl
  | cons e rest ih =>
    obtain ⟨first, sorted⟩ := List.pairwise_cons.mp inOrder
    rw [List.findIdx?_cons]
    by_cases above : cursor < e.seq
    · have all : ∀ f ∈ e :: rest, decide (cursor < f.seq) = true := by
        intro f listed
        rcases List.mem_cons.mp listed with rfl | later
        · exact decide_eq_true above
        · have := first f later
          exact decide_eq_true (by omega)
      rw [List.filter_eq_self.mpr all]
      simp [above]
    · have read := ih sorted
      rw [List.filter_cons_of_neg (by simpa using above), ← read]
      cases rest.findIdx? fun e => cursor < e.seq <;> simp [above]

theorem inMemory_readFrom (inOrder : InOrder log) (cursorExclusive limit : Int) :
    (inMemoryAfter log).readFrom cursorExclusive limit = Log.readFrom log cursorExclusive limit := by
  rw [inMemoryAfter_eq, Log.readFrom, insertionSort_inOrder inOrder, ← drop_findIdx inOrder]
  unfold InMemoryAtFirehoseCursorStore.readFrom
  split
  next none =>
    have zero : limit.toNat = 0 := by omega
    rw [zero, List.take_zero]
  next =>
    dsimp only
    cases log.findIdx? fun e => decide (cursorExclusive < e.seq) with
    | none => exact List.take_nil.symm
    | some start => rfl

theorem inMemory_readAll (log : List FirehoseEventEnvelope) :
    (inMemoryAfter log).readFrom (-1) (log.length + 1) = log := by
  rw [inMemoryAfter_eq]
  unfold InMemoryAtFirehoseCursorStore.readFrom
  have asks : ¬((log.length : Int) + 1 < 1) := by omega
  rw [if_neg asks]
  cases log with
  | nil => rfl
  | cons e rest =>
    have above : (-1 : Int) < e.seq := by omega
    have enough : rest.length + 1 ≤ ((((e :: rest).length : Int) + 1)).toNat := by
      simp only [List.length_cons]
      omega
    simp only [List.findIdx?_cons, above, decide_true, if_true, List.drop_zero]
    exact List.take_of_length_le enough

theorem log_readAll (log : List FirehoseEventEnvelope) :
    Log.readFrom log (-1) (log.length + 1) = log.insertionSort bySeq := by
  unfold Log.readFrom
  rw [List.filter_eq_self.mpr fun e _ => decide_eq_true (by omega), List.take_of_length_le]
  rw [List.length_insertionSort]
  omega

structure Retains (store : RedisAtFirehoseCursorStore) (kept : List FirehoseEventEnvelope) :
    Prop where
  index : store.index = kept.map (·.seq)
  payload : ∀ e ∈ kept, store.events e.seq = some (stringify e)
  inOrder : InOrder kept

section Redis
variable {store : RedisAtFirehoseCursorStore} {kept : List FirehoseEventEnvelope}
  {e : FirehoseEventEnvelope}

theorem Retains.readFrom (retains : Retains store kept) (cursorExclusive limit : Int) :
    store.readFrom cursorExclusive limit =
      (kept.filter fun e => cursorExclusive < e.seq).take limit.toNat := by
  have bound : ∀ seq : Nat, decide (max (-1) cursorExclusive < (seq : Int)) =
      decide (cursorExclusive < (seq : Int)) := by
    intro seq
    apply decide_eq_decide.mpr
    omega
  have resolved : ∀ events : List FirehoseEventEnvelope, (∀ e ∈ events, e ∈ kept) →
      (events.map (·.seq)).filterMap (fun seq => parseStoredEnvelope (store.events seq)) =
        events := by
    intro events listed
    induction events with
    | nil => rfl
    | cons e rest ih =>
      have read : parseStoredEnvelope (store.events e.seq) = some e := by
        rw [retains.payload e (listed e List.mem_cons_self), parse_stringify]
      have later := ih fun f found => listed f (List.mem_cons_of_mem e found)
      rw [List.map_cons, List.filterMap_cons, read, later]
  unfold RedisAtFirehoseCursorStore.readFrom
  split
  next none =>
    have zero : limit.toNat = 0 := by omega
    rw [zero, List.take_zero]
  next =>
    simp only [bound, retains.index, List.filter_map, ← List.map_take]
    apply resolved
    intro f taken
    exact (List.mem_filter.mp (List.mem_of_mem_take taken)).1

theorem inOrder_orderedInsert (inOrder : InOrder kept) (fresh : ∀ f ∈ kept, f.seq ≠ e.seq) :
    InOrder (kept.orderedInsert bySeq e) := by
  apply inOrder_of_le
  · exact inOrder.le.orderedInsert e kept
  · have listed := ((List.perm_orderedInsert bySeq e kept).map (·.seq)).nodup_iff
    rw [listed, List.map_cons, List.nodup_cons]
    constructor
    · intro found
      obtain ⟨f, isKept, same⟩ := List.mem_map.mp found
      exact fresh f isKept same
    · exact List.pairwise_map.mpr (inOrder.imp Nat.ne_of_lt)

theorem Retains.append (retains : Retains store kept) (fresh : ∀ f ∈ kept, f.seq ≠ e.seq) :
    Retains (store.append e)
      ((kept.orderedInsert bySeq e).drop (kept.length + 1 - store.maxEvents)) := by
  have sorted := inOrder_orderedInsert retains.inOrder fresh
  have absent : e.seq ∉ store.index := by
    rw [retains.index]
    intro found
    obtain ⟨f, isKept, same⟩ := List.mem_map.mp found
    exact fresh f isKept same
  have index : zadd e.seq store.index = (kept.orderedInsert bySeq e).map (·.seq) := by
    rw [zadd, if_neg absent, retains.index]
    exact (List.map_orderedInsert bySeq (· ≤ ·) (·.seq) kept e (fun _ _ => Iff.rfl)
      fun _ _ => Iff.rfl).symm
  have size : (zadd e.seq store.index).length = kept.length + 1 := by
    rw [index, List.length_map, List.orderedInsert_length]
  constructor
  · simp only [RedisAtFirehoseCursorStore.append, RedisAtFirehoseCursorStore.trimOverflow, size]
    rw [index, List.map_drop]
  · intro f isKept
    have inserted := List.mem_of_mem_drop isKept
    have untouched : f.seq ∉ (zadd e.seq store.index).take
        (kept.length + 1 - store.maxEvents) := by
      intro stale
      rw [index, ← List.map_take] at stale
      obtain ⟨g, old, same⟩ := List.mem_map.mp stale
      have cut := List.take_append_drop (kept.length + 1 - store.maxEvents)
        (kept.orderedInsert bySeq e)
      rw [InOrder, ← cut] at sorted
      exact absurd same (Nat.ne_of_lt ((List.pairwise_append.mp sorted).2.2 g old f isKept))
    simp only [RedisAtFirehoseCursorStore.append, RedisAtFirehoseCursorStore.trimOverflow, size,
      if_neg untouched]
    rcases (List.mem_orderedInsert bySeq).mp inserted with rfl | before
    · rw [if_pos rfl]
    · rw [if_neg (fresh f before), retains.payload f before]
  · exact sorted.sublist (List.drop_sublist _ _)

@[simp] theorem append_maxEvents : (store.append e).maxEvents = store.maxEvents := rfl

@[simp] theorem append_latestSeq : (store.append e).latestSeq = e.seq := rfl

theorem retains_empty (maxEvents : Nat) : Retains (.empty maxEvents) [] where
  index := rfl
  payload _ listed := nomatch listed
  inOrder := List.Pairwise.nil

end Redis

theorem redisAfter_append (maxEvents : Nat) (log : List FirehoseEventEnvelope)
    (e : FirehoseEventEnvelope) :
    redisAfter maxEvents (log ++ [e]) = (redisAfter maxEvents log).append e := by
  simp [redisAfter]

theorem redisAfter_maxEvents (maxEvents : Nat) (log : List FirehoseEventEnvelope) :
    (redisAfter maxEvents log).maxEvents = maxEvents := by
  induction log using List.reverseRecOn with
  | nil => rfl
  | append_singleton rest e ih => rw [redisAfter_append, append_maxEvents, ih]

theorem redisAfter_retains {maxEvents : Nat}
    (distinct : (log.map (·.seq)).Nodup) (few : log.length < maxEvents) :
    Retains (redisAfter maxEvents log) (log.insertionSort bySeq) := by
  induction log using List.reverseRecOn with
  | nil => exact retains_empty maxEvents
  | append_singleton rest e ih =>
    have apart := distinct
    rw [List.map_append, List.nodup_append] at apart
    have size : rest.length + 1 < maxEvents := by simpa using few
    have retains := ih apart.1 (by omega)
    have fresh : ∀ f ∈ rest.insertionSort bySeq, f.seq ≠ e.seq := by
      intro f listed
      exact apart.2.2 f.seq (List.mem_map_of_mem ((List.mem_insertionSort bySeq).mp listed)) e.seq (by simp)
    have grown := retains.append fresh
    rw [redisAfter_maxEvents, List.length_insertionSort, Nat.sub_eq_zero_of_le (by omega),
      List.drop_zero] at grown
    have same : (rest.insertionSort bySeq).orderedInsert bySeq e =
        (rest ++ [e]).insertionSort bySeq := by
      apply InOrder.ext _ grown.inOrder (inOrder_insertionSort distinct)
      calc (rest.insertionSort bySeq).orderedInsert bySeq e
          _ |>.Perm (e :: rest.insertionSort bySeq) := List.perm_orderedInsert bySeq e _
          _ |>.Perm (e :: rest) := (List.perm_insertionSort bySeq rest).cons e
          _ |>.Perm (rest ++ [e]) := (List.perm_append_singleton e rest).symm
          _ |>.Perm _ := (List.perm_insertionSort bySeq _).symm
    rw [redisAfter_append, ← same]
    exact grown

theorem redisAfter_latestSeq (maxEvents : Nat) (log : List FirehoseEventEnvelope) :
    (redisAfter maxEvents log).latestSeq = (log.getLast?.map (·.seq)).getD 0 := by
  induction log using List.reverseRecOn with
  | nil => rfl
  | append_singleton rest e _ => rw [redisAfter_append, append_latestSeq]; simp

/-- Fewer than `maxEvents` events with distinct numbers: both stores answer as one log
exactly where the events were appended in increasing order. -/
theorem answers_as_one_log (maxEvents : Nat) (log : List FirehoseEventEnvelope)
    (distinct : (log.map (·.seq)).Nodup) (few : log.length < maxEvents) :
    AnswersAsOneLog maxEvents log ↔ InOrder log := by
  constructor
  · intro answers
    have sorted : log = log.insertionSort bySeq := by
      rw [← log_readAll, ← answers.inMemory_reads, inMemory_readAll]
    rw [sorted]
    exact inOrder_insertionSort distinct
  · intro inOrder
    have latest : (redisAfter maxEvents log).latestSeq = Log.latestSeq log := by
      rw [redisAfter_latestSeq, latestSeq_inOrder inOrder]
    have inMemory : (inMemoryAfter log).latestSeq = Log.latestSeq log := by
      rw [inMemoryAfter_eq]
      rfl
    constructor
    · exact inMemory_readFrom inOrder
    · exact (redisAfter_retains distinct few).readFrom
    · exact inMemory
    · exact latest
    · rw [inMemory]
      exact fun e listed => Nat.lt_succ_of_le (le_latestSeq listed)
    · rw [latest]
      exact fun e listed => Nat.lt_succ_of_le (le_latestSeq listed)

def identityEvent : FirehoseEventEnvelope := ⟨2, .identity, [2], "2026-01-01T00:00:01.000Z"⟩

def accountEvent : FirehoseEventEnvelope := ⟨1, .account, [1], "2026-01-01T00:00:00.000Z"⟩

theorem answers_as_one_log_inOrder :
    AnswersAsOneLog defaultMaxEvents [accountEvent, identityEvent] :=
  (answers_as_one_log _ _ (by decide) (by decide)).mpr (by decide)

/-- Appends that completed out of order: the in-memory store returns an event at or below
the cursor, and a publisher restarted on the Redis store assigns the second number again. -/
theorem appended_out_of_order :
    (inMemoryAfter [identityEvent, accountEvent]).readFrom 1 2 = [identityEvent, accountEvent] ∧
      Log.readFrom [identityEvent, accountEvent] 1 2 = [identityEvent] ∧
      nextSeq (initialSeqCounter
        (redisAfter defaultMaxEvents [identityEvent, accountEvent]).latestSeq) =
          identityEvent.seq ∧
      ¬AnswersAsOneLog defaultMaxEvents [identityEvent, accountEvent] := by
  have read : (inMemoryAfter [identityEvent, accountEvent]).readFrom 1 2 =
      [identityEvent, accountEvent] := by decide
  have log : Log.readFrom [identityEvent, accountEvent] 1 2 = [identityEvent] := by decide
  refine ⟨read, log, by decide, fun answers => ?_⟩
  have same := answers.inMemory_reads 1 2
  rw [read, log] at same
  exact absurd same (by decide)

end MastopodFederation.Guarantees.CursorStoreLog
