import MastopodFederation.Source.StreamConsumers

/-!
# Malformed entries in the four stream consumers

Outbound jobs and outbox intents are read with error handling for each entry. Inbound envelopes
and origin reconciliation jobs are not: their loops end at the first malformed entry, which is
harmless exactly when no well-formed entry stands behind a malformed one.
-/
namespace MastopodFederation.Guarantees.PoisonEntries
open Source.DelayedQueue Source.StreamConsumers

section Batch
variable {α : Type} (deserialize : String → Fields → Except String α)

def wellFormed (entry : Entry) : Option (String × α) :=
  (deserialize entry.1 entry.2).toOption.map fun value => (entry.1, value)

def Malformed (entry : Entry) : Prop := ∃ error, deserialize entry.1 entry.2 = .error error

def MalformedLast (batch : List Entry) : Prop :=
  ∀ front bad behind, batch = front ++ bad :: behind → Malformed deserialize bad →
    ∀ entry ∈ behind, Malformed deserialize entry

structure Isolates (round : Round) (yields : Yields α) : Prop where
  claimed : ∀ pending, round.pending = .ok pending →
    yields.claimed = (normalizeClaimedMessages pending).filterMap (wellFormed deserialize)
  new : ∀ messages given, round.messages = .ok messages → yields.new = some given →
    given = (newEntries messages).filterMap (wellFormed deserialize)

/-- In neither batch that the round comes to a well-formed entry stands behind a malformed
one. -/
structure RoundMalformedLast (round : Round) : Prop where
  claimed : ∀ pending, round.pending = .ok pending →
    MalformedLast deserialize (normalizeClaimedMessages pending)
  new : ∀ pending messages, round.pending = .ok pending →
    (∀ entry ∈ normalizeClaimedMessages pending, ¬ Malformed deserialize entry) →
    round.messages = .ok messages → MalformedLast deserialize (newEntries messages)

variable {deserialize}

theorem yieldEach_eq (batch : List Entry) :
    yieldEach deserialize batch = (batch.filterMap (wellFormed deserialize), none) := by
  induction batch with
  | nil => rfl
  | cons entry rest ih =>
    obtain ⟨messageId, fields⟩ := entry
    cases read : deserialize messageId fields with
    | error error => simp [yieldEach, ih, read, wellFormed, Except.toOption]
    | ok value => simp [yieldEach, ih, read, wellFormed, Except.toOption]

theorem malformed_iff {entry : Entry} :
    Malformed deserialize entry ↔ wellFormed deserialize entry = none := by
  cases read : deserialize entry.1 entry.2 <;>
    simp [Malformed, wellFormed, read, Except.toOption]

theorem malformedLast_cons {entry : Entry} {rest : List Entry} :
    MalformedLast deserialize (entry :: rest) ↔
      (Malformed deserialize entry → ∀ other ∈ rest, Malformed deserialize other) ∧
        MalformedLast deserialize rest := by
  constructor
  · intro last
    refine ⟨last [] entry rest rfl, fun front bad behind split => ?_⟩
    exact last (entry :: front) bad behind (by rw [split, List.cons_append])
  · rintro ⟨own, rest⟩ front bad behind split
    cases front with
    | nil =>
      obtain ⟨rfl, rfl⟩ := List.cons.inj split
      exact own
    | cons first front =>
      obtain ⟨_, split⟩ := List.cons.inj split
      exact rest front bad behind split

/-- A loop without error handling yields all well-formed entries exactly when none of them
stands behind a malformed one. -/
theorem yieldAll_complete_iff (batch : List Entry) :
    (yieldAll deserialize batch).1 = batch.filterMap (wellFormed deserialize) ↔
      MalformedLast deserialize batch := by
  induction batch with
  | nil => simp [yieldAll, MalformedLast]
  | cons entry rest ih =>
    rw [malformedLast_cons, ← ih]
    obtain ⟨messageId, fields⟩ := entry
    cases read : deserialize messageId fields with
    | error error =>
      have own : Malformed deserialize (messageId, fields) := ⟨error, read⟩
      have none := malformed_iff.mp own
      simp only [yieldAll, read, List.filterMap_cons, none, own, true_implies]
      constructor
      · intro empty
        have all : ∀ other ∈ rest, Malformed deserialize other := fun other mem =>
          malformed_iff.mpr (List.filterMap_eq_nil_iff.mp empty.symm other mem)
        refine ⟨all, ih.mpr fun front bad behind split _ other mem => all other ?_⟩
        rw [split]
        exact List.mem_append_right _ (List.mem_cons_of_mem _ mem)
      · rintro ⟨all, _⟩
        exact (List.filterMap_eq_nil_iff.mpr fun other mem => malformed_iff.mp (all other mem)).symm
    | ok value =>
      have own : ¬ Malformed deserialize (messageId, fields) := by simp [Malformed, read]
      have given : wellFormed deserialize (messageId, fields) = some (messageId, value) := by
        simp [wellFormed, read, Except.toOption]
      simp [yieldAll, read, given, own]

theorem yieldAll_failed_iff (batch : List Entry) :
    (yieldAll deserialize batch).2 = none ↔ ∀ entry ∈ batch, ¬ Malformed deserialize entry := by
  induction batch with
  | nil => simp [yieldAll]
  | cons entry rest ih =>
    obtain ⟨messageId, fields⟩ := entry
    rw [List.forall_mem_cons, ← ih]
    cases read : deserialize messageId fields with
    | error error => simp [yieldAll, Malformed, read]
    | ok value => simp [yieldAll, Malformed, read]

theorem isolates_iff (loop : List Entry → List (String × α) × Option String) (round : Round) :
    Isolates deserialize round (pollRound loop round) ↔
      (∀ pending, round.pending = .ok pending → (loop (normalizeClaimedMessages pending)).1 =
        (normalizeClaimedMessages pending).filterMap (wellFormed deserialize)) ∧
      ∀ pending messages, round.pending = .ok pending →
        (loop (normalizeClaimedMessages pending)).2 = none → round.messages = .ok messages →
        (loop (newEntries messages)).1 =
          (newEntries messages).filterMap (wellFormed deserialize) := by
  have parts : ∀ yields, Isolates deserialize round yields ↔ _ :=
    fun yields => ⟨fun all => (⟨all.claimed, all.new⟩ : _ ∧ _), fun all => ⟨all.1, all.2⟩⟩
  rw [parts]
  obtain ⟨pending, messages⟩ := round
  cases pending with
  | error error => simp [pollRound]
  | ok pending =>
    obtain ⟨claimed, failed, result⟩ :
        ∃ claimed failed, loop (normalizeClaimedMessages pending) = (claimed, failed) :=
      ⟨_, _, rfl⟩
    cases failed with
    | some error =>
      simp only [pollRound, result, Except.ok.injEq, forall_eq', reduceCtorEq, false_implies,
        implies_true, and_true, iff_self_and]
      rintro _ given messages rfl ended
      rw [result] at ended
      cases ended
    | none => cases messages <;> simp [pollRound, result]

theorem isolates_yieldEach (round : Round) :
    Isolates deserialize round (pollRound (yieldEach deserialize) round) := by
  rw [isolates_iff]
  simp [yieldEach_eq]

theorem isolates_yieldAll_iff (round : Round) :
    Isolates deserialize round (pollRound (yieldAll deserialize) round) ↔
      RoundMalformedLast deserialize round := by
  rw [isolates_iff]
  simp only [yieldAll_complete_iff, yieldAll_failed_iff]
  exact ⟨fun last => ⟨last.1, last.2⟩, fun last => ⟨last.claimed, last.new⟩⟩

end Batch

theorem forall₂_map_iff {α β : Type} {R : α → β → Prop} {f : α → β} (items : List α) :
    List.Forall₂ R items (items.map f) ↔ ∀ item ∈ items, R item (f item) := by
  induction items with
  | nil => simp
  | cons item rest ih => simp [ih]

/-- In every run, outbound jobs and outbox intents are isolated from malformed entries; inbound
envelopes and origin reconciliation jobs are exactly when no well-formed entry of a batch
stands behind a malformed one. -/
theorem poison_isolation_iff (rt : Runtime) (codec : PayloadCodec) (rounds : List Round) :
    List.Forall₂ (Isolates (deserializeOutboundJob rt codec)) rounds
      (consumeOutbound rt codec rounds) ∧
    List.Forall₂ (Isolates (deserializeOutboxIntent rt codec)) rounds
      (consumeOutboxIntents rt codec rounds) ∧
    (List.Forall₂ (Isolates (deserializeInboundEnvelope rt)) rounds (consumeInbound rt rounds) ↔
      ∀ round ∈ rounds, RoundMalformedLast (deserializeInboundEnvelope rt) round) ∧
    (List.Forall₂ (Isolates (deserializeOriginReconciliationJob rt)) rounds
      (consumeOriginReconciliation rt rounds) ↔
      ∀ round ∈ rounds, RoundMalformedLast (deserializeOriginReconciliationJob rt) round) :=
  ⟨(forall₂_map_iff rounds).mpr fun round _ => isolates_yieldEach round,
    (forall₂_map_iff rounds).mpr fun round _ => isolates_yieldEach round,
    (forall₂_map_iff rounds).trans (forall₂_congr fun round _ => isolates_yieldAll_iff round),
    (forall₂_map_iff rounds).trans (forall₂_congr fun round _ => isolates_yieldAll_iff round)⟩

def emptyObjects : Runtime where
  stringify _ := "\x7b\x7d"
  parse _ := .ok (.obj [])
  cjsonDecode _ := none
  cjsonEncode _ := ""
  reprint value := value
  numberToString _ := "0"
  parseInt _ := 0
  luaToString _ := "0"
  numeral _ := false

def goodFields : Fields :=
  [("envelopeId", "e1"), ("method", "POST"), ("path", "/inbox"), ("headers", "\x7b\x7d"),
    ("body", "\x7b\x7d"), ("remoteIp", "::1"), ("receivedAt", "1")]

def poisonedRound : Round where
  pending := .ok (some [.object (some "1-0") (some []), .object (some "2-0") (some goodFields)])
  messages := .ok none

/-- The inbound consumer yields nothing of the batch, though its second entry is well-formed. -/
theorem poisoned_inbound :
    (∃ envelope, wellFormed (deserializeInboundEnvelope emptyObjects) ("2-0", goodFields) =
      some ("2-0", envelope)) ∧
    (consumeInbound emptyObjects [poisonedRound]).map (·.claimed.length) = [0] ∧
    ¬ List.Forall₂ (Isolates (deserializeInboundEnvelope emptyObjects)) [poisonedRound]
      (consumeInbound emptyObjects [poisonedRound]) := by
  refine ⟨⟨_, rfl⟩, rfl, fun isolated => ?_⟩
  have claimed := (List.forall₂_cons.mp isolated).1.claimed _ rfl
  exact absurd (congrArg List.length claimed) (by decide)

end MastopodFederation.Guarantees.PoisonEntries
