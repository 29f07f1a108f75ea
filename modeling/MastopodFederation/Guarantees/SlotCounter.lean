import MastopodFederation.Source.DomainSlots

/-!
# The slot counter of a domain

The counter equals the number of slots held, and that number stays within the limit,
as long as the key does not expire while a slot is held. Only the step from zero to
one sets an expiry: after an hour without an idle moment the count is forgotten, and a
release then leaves a negative counter that never expires.
-/
namespace MastopodFederation.Guarantees.SlotCounter
open Lib.GuardedRun Source.DomainSlots

variable {W : Type} [DecidableEq W] {maxConcurrent : Nat} {s t : Slots W}

structure Sound (maxConcurrent : Nat) (s : Slots W) : Prop where
  limited : s.held.length ≤ maxConcurrent
  counted : storedCounter s.nowMs s.key = s.held.length

def KeepsKey (s : Slots W) : Event W → Prop
  | .tick nowMs => s.held = [] ∨ (readKey nowMs s.key).isSome
  | _ => True

instance (s : Slots W) (e : Event W) : Decidable (KeepsKey s e) :=
  match e with
  | .tick nowMs => inferInstanceAs (Decidable (s.held = [] ∨ (readKey nowMs s.key).isSome))
  | .acquire _ | .release _ => isTrue trivial

theorem value_incrBy (nowMs : Int) (key : Option SlotKey) (amount : Int) :
    (incrBy nowMs key amount).value = storedCounter nowMs key + amount := by
  unfold incrBy storedCounter
  cases readKey nowMs key with
  | some k => rfl
  | none => exact (Int.zero_add amount).symm

variable {nowMs : Int}

theorem storedCounter_of_unexpired {k : SlotKey}
    (unexpired : ∀ expiry, k.expiresAt = some expiry → nowMs ≤ expiry) :
    storedCounter nowMs (some k) = k.value := by
  unfold storedCounter readKey
  cases expiring : k.expiresAt with
  | none => simp [Option.filter, expiring]
  | some expiry => simp [Option.filter, expiring, unexpired expiry expiring]

variable {key : Option SlotKey}

theorem unexpired_incrBy {amount : Int} :
    ∀ expiry, (incrBy nowMs key amount).expiresAt = some expiry → nowMs ≤ expiry := by
  intro expiry expiring
  unfold incrBy at expiring
  split at expiring
  next k read =>
    have kept := (Option.filter_eq_some_iff.mp read).2
    rw [show k.expiresAt = some expiry from expiring] at kept
    exact of_decide_eq_true kept
  · cases expiring

theorem storedCounter_release (nowMs : Int) (key : Option SlotKey) :
    storedCounter nowMs (some (releaseDomainSlot nowMs key)) = storedCounter nowMs key - 1 := by
  unfold releaseDomainSlot
  rw [storedCounter_of_unexpired unexpired_incrBy, value_incrBy, Int.sub_eq_add_neg]

theorem expireFirst_spec (nowMs : Int) (key : Option SlotKey) :
    (expireFirst nowMs (incrBy nowMs key 1)).value = storedCounter nowMs key + 1 ∧
      ∀ expiry, (expireFirst nowMs (incrBy nowMs key 1)).expiresAt = some expiry →
        nowMs ≤ expiry := by
  have value := value_incrBy nowMs key 1
  unfold expireFirst
  split
  · refine ⟨value, ?_⟩
    rintro expiry ⟨rfl⟩
    unfold slotTtlMs
    omega
  · exact ⟨value, unexpired_incrBy⟩

theorem acquire_spec (nowMs : Int) (key : Option SlotKey) (maxConcurrent : Nat) :
    ((acquireDomainSlot nowMs key maxConcurrent).1 = true ↔
        storedCounter nowMs key < maxConcurrent) ∧
      storedCounter nowMs (some (acquireDomainSlot nowMs key maxConcurrent).2) =
        if (acquireDomainSlot nowMs key maxConcurrent).1 then storedCounter nowMs key + 1
        else storedCounter nowMs key := by
  obtain ⟨value, unexpired⟩ := expireFirst_spec nowMs key
  unfold acquireDomainSlot
  dsimp only
  split
  next denied =>
    refine ⟨⟨nofun, fun below => ?_⟩, ?_⟩
    · omega
    · rw [if_neg nofun]
      apply (storedCounter_of_unexpired _).trans
      · dsimp only
        omega
      · exact unexpired
  next granted =>
    refine ⟨⟨fun _ => ?_, fun _ => rfl⟩, ?_⟩
    · omega
    · rw [if_pos rfl, ← value]
      exact storedCounter_of_unexpired unexpired

theorem readKey_earlier {later : Int} {k : SlotKey}
    (passes : nowMs ≤ later) (read : readKey later key = some k) : readKey nowMs key = some k := by
  obtain ⟨rfl, kept⟩ := Option.filter_eq_some_iff.mp read
  apply Option.filter_eq_some_iff.mpr
  refine ⟨rfl, ?_⟩
  split
  next expiry expiring =>
    rw [expiring] at kept
    exact decide_eq_true (le_trans passes (of_decide_eq_true kept))
  · rfl

theorem sound_step {e : Event W} (sound : Sound maxConcurrent s) (keeps : KeepsKey s e)
    (next : step maxConcurrent s e = some t) : Sound maxConcurrent t := by
  cases e with
  | acquire worker =>
    cases next
    obtain ⟨granted, counted⟩ := acquire_spec s.nowMs s.key maxConcurrent
    rw [sound.counted] at granted counted
    cases result : (acquireDomainSlot s.nowMs s.key maxConcurrent).1 with
    | false =>
      rw [result] at counted
      exact ⟨sound.limited, counted⟩
    | true =>
      rw [result] at counted
      refine ⟨Int.ofNat_lt.mp (granted.mp result), ?_⟩
      simpa using counted
  | release worker =>
    simp only [step] at next
    split at next
    next holds =>
      cases next
      have length := List.length_erase_of_mem holds
      have positive := List.length_pos_of_mem holds
      refine ⟨?_, ?_⟩
      · exact le_trans (length ▸ Nat.sub_le _ _) sound.limited
      · dsimp only
        rw [storedCounter_release, sound.counted, length]
        omega
    · cases next
  | tick nowMs =>
    simp only [step] at next
    split at next
    next passes =>
      cases next
      refine ⟨sound.limited, ?_⟩
      dsimp only
      cases read : readKey nowMs s.key with
      | some k =>
        rw [← sound.counted]
        unfold storedCounter
        rw [read, readKey_earlier passes read]
      | none =>
        unfold storedCounter
        rw [read]
        rcases keeps with idle | kept
        · rw [idle]
          rfl
        · rw [read] at kept
          cases kept
    · cases next

omit [DecidableEq W] in
theorem sound_initial : Sound maxConcurrent (Slots.initial : Slots W) := ⟨Nat.zero_le _, rfl⟩

/-- In every run in which the key does not expire while a slot is held, the counter is the
number of slots held and within the limit. -/
theorem counter_sound (maxConcurrent : Nat) (s : Slots W)
    (run : Reaches (ofFunction (step maxConcurrent)) KeepsKey Slots.initial s) :
    Sound maxConcurrent s :=
  run.invariant (fun _ _ _ sound keeps next => sound_step sound keeps next) sound_initial

def restingRun : List (Event String) :=
  [.acquire "a", .acquire "b", .tick 3600000, .release "a", .tick 3600001, .acquire "b"]

theorem counter_sound_resting :
    Sound 1 (⟨3600001, some ⟨1, some 7200001⟩, ["b"]⟩ : Slots String) :=
  counter_sound 1 _ (reaches_of_runGuarded restingRun _ _ (by decide))

def slowRun : List (Event String) :=
  [.acquire "a", .tick 3600001, .release "a", .acquire "b", .acquire "c"]

/-- The late release leaves the counter at -1, for good, and the next two workers both
get the only slot. -/
theorem limit_exceeded :
    ¬ ∀ (maxConcurrent : Nat) (s : Slots String),
      Reaches (ofFunction (step maxConcurrent)) always Slots.initial s → Sound maxConcurrent s := by
  intro claimed
  have reached : Reaches (ofFunction (step 1)) always (Slots.initial : Slots String)
      ⟨3600001, some ⟨1, some 7200001⟩, ["c", "b"]⟩ :=
    reaches_of_runLabels slowRun _ _ (by decide)
  exact absurd (claimed 1 _ reached).limited (by decide)

end MastopodFederation.Guarantees.SlotCounter
