import MastopodFederation.Guarantees.CursorStoreLog
import MastopodFederation.Source.FirehoseBackfill

/-!
# Reads of a trimmed window

The store keeps the last events that fit. A reader whose cursor lies before them gets what is
left without a word, unless nothing is left; every read is complete exactly while nothing
after the cursor was trimmed.
-/
namespace MastopodFederation.Guarantees.ReplayWindow
open Source.FirehoseCursorStore Source.FirehoseBackfill Guarantees.CursorStoreLog

def Trimmed (maxEvents : Nat) (log : List FirehoseEventEnvelope) (cursor : Nat) : Prop :=
  ∃ e ∈ log, cursor < e.seq ∧ (redisAfter maxEvents log).events e.seq = none

structure WindowReported (maxEvents : Nat) (log : List FirehoseEventEnvelope) (cursor : Nat) :
    Prop where
  complete : ∀ limit result, backfill (redisAfter maxEvents log) cursor limit = .ok result →
    result.tooOld = false →
      result.events = (log.filter fun e => cursor < e.seq).take limit.toNat
  tooOld : ∀ limit result, backfill (redisAfter maxEvents log) cursor limit = .ok result →
    Trimmed maxEvents log cursor → result.tooOld = true
  closed : Trimmed maxEvents log cursor →
    ∃ fuel attached, attach (redisAfter maxEvents log) fuel (some cursor) = some attached ∧
      attached.closed.isSome

section
variable {maxEvents : Nat} {log : List FirehoseEventEnvelope}

theorem retains_last (inOrder : InOrder log) :
    Retains (redisAfter maxEvents log) (log.drop (log.length - maxEvents)) := by
  induction log using List.reverseRecOn with
  | nil => simpa [redisAfter] using retains_empty maxEvents
  | append_singleton rest e ih =>
    obtain ⟨sorted, below⟩ := inOrder_append.mp inOrder
    have kept := ih sorted
    have under : ∀ f ∈ rest.drop (rest.length - maxEvents), f.seq < e.seq :=
      fun f kept => below f (List.mem_of_mem_drop kept)
    have fresh := fun f kept => Nat.ne_of_lt (under f kept)
    have last : (rest.drop (rest.length - maxEvents)).orderedInsert bySeq e
        = rest.drop (rest.length - maxEvents) ++ [e] :=
      InOrder.ext
        ((List.perm_orderedInsert bySeq e _).trans (List.perm_append_singleton e _).symm)
        (inOrder_orderedInsert kept.inOrder fresh) (inOrder_append.mpr ⟨kept.inOrder, under⟩)
    have grown := kept.append fresh
    rw [redisAfter_maxEvents, last, ← List.drop_append_of_le_length (Nat.sub_le _ _),
      List.drop_drop, List.length_drop] at grown
    have overflow : rest.length - maxEvents
        + (rest.length - (rest.length - maxEvents) + 1 - maxEvents)
          = (rest ++ [e]).length - maxEvents := by
      rw [List.length_append, List.length_singleton]
      omega
    rw [redisAfter_append, ← overflow]
    exact grown

theorem mem_index_of_stored {seq : Nat} (stored : (redisAfter maxEvents log).events seq ≠ none) :
    seq ∈ (redisAfter maxEvents log).index := by
  induction log using List.reverseRecOn with
  | nil => exact absurd rfl stored
  | append_singleton rest e ih =>
    rw [redisAfter_append] at stored ⊢
    simp only [RedisAtFirehoseCursorStore.append, RedisAtFirehoseCursorStore.trimOverflow]
      at stored ⊢
    split at stored
    · exact absurd rfl stored
    · next fresh =>
      have listed : seq ∈ zadd e.seq (redisAfter maxEvents rest).index := by
        unfold zadd
        split at stored <;> split <;> simp_all [List.mem_orderedInsert]
      rw [← List.take_append_drop _ (zadd _ _), List.mem_append] at listed
      exact listed.resolve_left fresh

variable (consecutive : log.map (·.seq) = List.range' 1 log.length)
include consecutive

theorem inOrder_consecutive : InOrder log := by
  have sorted : (log.map (·.seq)).Pairwise (· < ·) := by
    rw [consecutive]
    exact List.pairwise_lt_range'
  exact List.pairwise_map.mp sorted

theorem trimmed_iff (cursor : Nat) :
    Trimmed maxEvents log cursor ↔ cursor + maxEvents < log.length := by
  have kept : Retains (redisAfter maxEvents log) _ := retains_last (inOrder_consecutive consecutive)
  have index : (redisAfter maxEvents log).index
      = List.range' (1 + (log.length - maxEvents)) (log.length - (log.length - maxEvents)) := by
    rw [kept.index, List.map_drop, consecutive, List.drop_range', Nat.mul_one]
  constructor
  · rintro ⟨e, listed, above, gone⟩
    by_contra fits
    have number : e.seq ∈ List.range' 1 log.length := consecutive ▸ List.mem_map_of_mem listed
    have present : e.seq ∈ (redisAfter maxEvents log).index := by
      rw [index]
      simp only [List.mem_range'_1] at number ⊢
      omega
    rw [kept.index] at present
    obtain ⟨f, isKept, same⟩ := List.mem_map.mp present
    rw [← same, kept.payload f isKept] at gone
    cases gone
  · intro overflows
    have number : cursor + 1 ∈ log.map (·.seq) := by
      rw [consecutive, List.mem_range'_1]
      omega
    obtain ⟨e, listed, next⟩ := List.mem_map.mp number
    refine ⟨e, listed, by omega, ?_⟩
    by_contra stored
    have present := mem_index_of_stored stored
    rw [index, List.mem_range'_1] at present
    omega

theorem filter_kept {cursor : Nat} (fits : log.length ≤ cursor + maxEvents) :
    (log.drop (log.length - maxEvents)).filter (fun e => (cursor : Int) < e.seq)
      = log.filter fun e => cursor < e.seq := by
  have below : (log.take (log.length - maxEvents)).filter (fun e => cursor < e.seq) = [] := by
    rw [List.filter_eq_nil_iff]
    intro e taken
    have number := List.mem_map_of_mem (f := (·.seq)) taken
    rw [List.map_take, consecutive, List.take_range'_of_length_ge (Nat.sub_le _ _),
      List.mem_range'_1] at number
    simp only [decide_eq_true_eq]
    omega
  conv_rhs => rw [← List.take_append_drop (log.length - maxEvents) log, List.filter_append, below]
  simp

theorem backfill_spec {cursor : Nat} {limit : Int} {result : BackfillResult}
    (returned : backfill (redisAfter maxEvents log) cursor limit = .ok result) :
    result.events = ((log.drop (log.length - maxEvents)).filter
        (fun e => (cursor : Int) < e.seq)).take limit.toNat ∧
      (result.tooOld = true → result.events = []) := by
  have kept : Retains (redisAfter maxEvents log) _ := retains_last (inOrder_consecutive consecutive)
  unfold backfill at returned
  split at returned
  · cases returned
  · split at returned
    · cases returned
    · cases returned
      refine ⟨kept.readFrom cursor limit, fun old => ?_⟩
      simp only [Bool.and_eq_true, decide_eq_true_eq, List.length_eq_zero_iff] at old
      exact old.1

end

theorem attach_open {store : RedisAtFirehoseCursorStore} {fuel cursor : Nat} {attached : Attached}
    (finished : attach store fuel (some cursor) = some attached) : attached.closed = none := by
  rw [attach, if_neg (by omega), Option.map_eq_some_iff] at finished
  obtain ⟨sent, -, rfl⟩ := finished
  rfl

/-- Reads after the cursor are complete or reported exactly while nothing after it was
trimmed. -/
theorem window_reported_iff (maxEvents : Nat) (log : List FirehoseEventEnvelope) (cursor : Nat)
    (consecutive : log.map (·.seq) = List.range' 1 log.length) :
    WindowReported maxEvents log cursor ↔ log.length ≤ cursor + maxEvents := by
  have trimmed : Trimmed maxEvents log cursor ↔ _ := trimmed_iff consecutive cursor
  constructor
  · intro reported
    by_contra overflows
    obtain ⟨fuel, attached, finished, closed⟩ := reported.closed (trimmed.mpr (by omega))
    simp [attach_open finished] at closed
  · intro fits
    have whole : ¬ Trimmed maxEvents log cursor := by
      rw [trimmed]
      omega
    refine ⟨fun limit result returned _ => ?_, fun _ _ _ gone => absurd gone whole,
      fun gone => absurd gone whole⟩
    rw [(backfill_spec consecutive returned).1, filter_kept consecutive fits]

theorem window_reported_iff_two :
    [accountEvent, identityEvent].map (·.seq) = List.range' 1 2 ∧
    (WindowReported 100 [accountEvent, identityEvent] 0 ↔ 2 ≤ 0 + 100) :=
  ⟨rfl, window_reported_iff 100 _ 0 rfl⟩

def overfull : List FirehoseEventEnvelope :=
  (List.range' 1 101).map fun seq => ⟨seq, .identity, [], "2026-01-01T00:00:00.000Z"⟩

/-- The first event is gone, and a reader from the start gets the others as if complete. -/
theorem gap_unreported : ¬ WindowReported (maxEventsOf (some 100)) overfull 0 := by
  intro reported
  have consecutive : overfull.map (·.seq) = List.range' 1 overfull.length := by
    simp [overfull, Function.comp_def]
  have trimmed : Trimmed (maxEventsOf (some 100)) overfull 0 :=
    (trimmed_iff consecutive 0).mpr (by simp [overfull, maxEventsOf])
  obtain ⟨result, returned⟩ : ∃ result,
      backfill (redisAfter (maxEventsOf (some 100)) overfull) (0 : Nat) 1000 = .ok result :=
    ⟨_, rfl⟩
  obtain ⟨events, old⟩ := backfill_spec consecutive returned
  have second : result.events.head? = some ⟨2, .identity, [], "2026-01-01T00:00:00.000Z"⟩ := by
    rw [events]
    rfl
  rw [old (reported.tooOld 1000 result returned trimmed)] at second
  cases second

end MastopodFederation.Guarantees.ReplayWindow
