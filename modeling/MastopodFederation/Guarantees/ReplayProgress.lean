import MastopodFederation.Guarantees.ReplayRequests

/-!
# The store under a scan

The dispatcher only adds records, each with a sequence that is published later, so what a scan
has read stays read. A scan whose batches hold no subscribed record that is published after the
connection was registered, and that no cap cuts short, finds exactly what was published before.
-/
namespace MastopodFederation.Guarantees.ReplayProgress
open Lib.PoolRuns Lib.Ascending
open Source.Fep3ab2Topics Source.Fep3ab2ReplayStore ReplayRecords ReplayRequests

def Staged (s : Server) : Stage → Prop
  | .waiting | .appended none => ∀ record ∈ s.stored, record.sequence ≤ s.sequence
  | .sequenced => 0 < s.sequence ∧ ∀ record ∈ s.stored, record.sequence < s.sequence
  | .appended (some record) => ∃ event later before, s.pending = event :: later ∧
      record = recordOf event s.sequence ∧ s.stored = before ++ [record] ∧ 0 < s.sequence ∧
      ∀ record ∈ before, record.sequence < s.sequence

structure Orderly (s : Server) : Prop where
  ascending : Ascending (·.sequence) s.stored
  readable : ∀ record ∈ s.stored, Readable record
  pending : ∀ event ∈ s.pending,
    shouldPersist event = true ∧ sseEventNames.contains event.event = true
  safe : isSafeInteger s.sequence = true
  staged : Staged s s.stage

def Extends (s t : Server) : Prop :=
  s.published ≤ t.published ∧ ∃ more, t.stored = s.stored ++ more ∧
    ∀ record ∈ more, s.published < record.sequence

theorem Extends.of_same {s t : Server} (stored : t.stored = s.stored)
    (published : s.published ≤ t.published) : Extends s t :=
  ⟨published, [], by rw [stored, List.append_nil], fun _ none => nomatch none⟩

section Growth
variable {s t : Server} {n baseline : Nat} {topics : List String}

theorem Orderly.bounded (orderly : Orderly s) : ∀ record ∈ s.stored, record.sequence ≤ s.sequence := by
  have staged := orderly.staged
  intro record listed
  cases stage : s.stage with
  | waiting =>
    rw [stage] at staged
    exact staged record listed
  | sequenced =>
    rw [stage] at staged
    exact Nat.le_of_lt (staged.2 record listed)
  | appended stored =>
    rw [stage] at staged
    cases stored with
    | none => exact staged record listed
    | some last =>
      obtain ⟨event, later, before, -, rfl, stored, -, less⟩ := staged
      rw [stored, List.mem_append, List.mem_singleton] at listed
      rcases listed with early | rfl
      · exact Nat.le_of_lt (less record early)
      · exact Nat.le_refl _

theorem Extends.storedAfter (extends_ : Extends s t) :
    ∃ more, storedAfter n t = storedAfter n s ++ more ∧
      ∀ record ∈ more, s.published < record.sequence := by
  obtain ⟨-, more, stored, later⟩ := extends_
  refine ⟨more.filter fun record => n < record.sequence, ?_, ?_⟩
  · unfold ReplayRequests.storedAfter
    rw [stored, List.filter_append]
  · exact fun record listed => later record (List.mem_filter.mp listed).1

theorem Extends.early (extends_ : Extends s t) (before : baseline ≤ s.published) :
    early n baseline t = early n baseline s := by
  obtain ⟨more, stored, later⟩ := extends_.storedAfter (n := n)
  unfold ReplayRequests.early
  rw [stored, List.filter_append, List.append_right_eq_self, List.filter_eq_nil_iff]
  intro record listed
  have above := later record listed
  simp only [decide_eq_true_eq]
  omega

theorem subscribed_append (first second : List StoredReplayEvent) :
    subscribed topics (first ++ second) = subscribed topics first ++ subscribed topics second :=
  List.filter_append ..

theorem live_of_same (stored : t.stored = s.stored) (before : s.published ≤ t.published)
    (none : ∀ record ∈ s.stored, record.sequence ≤ t.published → record.sequence ≤ s.published) :
    live topics n t = live topics n s := by
  unfold live
  rw [stored]
  congr 1
  apply List.filter_congr
  intro record listed
  have same : (record.sequence ≤ t.published) = (record.sequence ≤ s.published) :=
    propext ⟨none record (List.mem_filter.mp listed).1, fun early => early.trans before⟩
  simp only [same]

end Growth

inductive Publishes (s : Server) : Server → Prop where
  /-- nothing is published -/
  | silent {t : Server} (link : t.link = s.link)
      (live : ∀ topics n, live topics n t = live topics n s) : Publishes s t
  /-- an event without a record is published -/
  | unstored {t : Server} (event : FepDispatchEvent) (offered : t.link = (s.hubPublish event none).link)
      (live : ∀ topics n, live topics n t = live topics n s) : Publishes s t
  /-- the last record is published -/
  | stored {t : Server} (event : FepDispatchEvent) (sequence : Nat)
      (offered : t.link = (s.hubPublish event (some sequence)).link)
      (anyone : event.principal.all (· = "") = true) (fresh : s.published < sequence)
      (live : ∀ topics n, live topics n t = live topics n s ++
        if isSubscribed topics event.topic && decide (n < sequence) then [sequence] else []) :
      Publishes s t

section Dispatch
variable {config : Config} {s t : Server} {event : FepDispatchEvent}
  {later : List FepDispatchEvent}

theorem orderly_publish (config : Config) (orderly : Orderly s) (named : sseEventNames.contains event.event = true) :
    Orderly (s.publish config event) ∧ Extends s (s.publish config event) ∧
      Publishes s (s.publish config event) := by
  have bypassed : Orderly (s.hubPublish event none) ∧ Extends s (s.hubPublish event none) ∧
      Publishes s (s.hubPublish event none) := by
    unfold Server.hubPublish
    split
    next link =>
      refine ⟨⟨orderly.ascending, orderly.readable, orderly.pending, orderly.safe, orderly.staged⟩,
        .of_same rfl (Nat.le_refl _), .unstored event ?_ fun _ _ => rfl⟩
      unfold Server.hubPublish
      rw [link]
    next => exact ⟨orderly, .of_same rfl (Nat.le_refl _), .silent rfl fun _ _ => rfl⟩
  unfold Server.publish
  split
  · exact bypassed
  next persisted =>
    split
    · exact bypassed
    · refine ⟨⟨orderly.ascending, orderly.readable, ?_, orderly.safe, ?_⟩,
        .of_same rfl (Nat.le_refl _), .silent rfl fun _ _ => rfl⟩
      · intro waiting listed
        rcases List.mem_append.mp listed with before | last
        · exact orderly.pending waiting before
        · rw [List.mem_singleton.mp last]
          exact ⟨by simpa using persisted, named⟩
      · have staged := orderly.staged
        cases stage : s.stage with
        | waiting | sequenced =>
          rw [stage] at staged
          exact staged
        | appended stored =>
          rw [stage] at staged
          cases stored with
          | none => exact staged
          | some record =>
            obtain ⟨head, rest, before, pending, same, stored, positive, less⟩ := staged
            refine ⟨head, rest ++ [event], before, ?_, same, stored, positive, less⟩
            change s.pending ++ [event] = _
            rw [pending, List.cons_append]

theorem orderly_sequence (orderly : Orderly s) (stage : s.stage = .waiting)
    (safe : isSafeInteger (s.sequence + 1) = true) :
    let t : Server := { s with sequence := s.sequence + 1, stage := .sequenced }
    Orderly t ∧ Extends s t ∧ Publishes s t := by
  intro t
  have staged := orderly.staged
  rw [stage] at staged
  have published : s.published = t.published := by
    unfold Server.published
    rw [stage]
    rfl
  refine ⟨⟨orderly.ascending, orderly.readable, orderly.pending, safe, Nat.succ_pos _, ?_⟩,
    .of_same rfl (Nat.le_of_eq published), .silent rfl fun topics n => ?_⟩
  · exact fun record listed => Nat.lt_succ_of_le (staged record listed)
  · exact live_of_same rfl (Nat.le_of_eq published) fun record _ => (published ▸ id)

variable {record : StoredReplayEvent}

theorem zadd_last {stored : List StoredReplayEvent}
    (last : ∀ other ∈ stored, other.sequence < record.sequence) :
    Server.zadd stored record = stored ++ [record] := by
  unfold Server.zadd
  have all : stored.filter (·.sequence < record.sequence) = stored := by
    apply List.filter_eq_self.mpr
    intro other listed
    exact decide_eq_true (last other listed)
  have none : stored.filter (record.sequence < ·.sequence) = [] := by
    apply List.filter_eq_nil_iff.mpr
    intro other listed
    have less := last other listed
    simp only [decide_eq_true_eq]
    omega
  rw [all, none]

theorem orderly_store (orderly : Orderly s) (stage : s.stage = .sequenced)
    (pending : s.pending = event :: later) :
    Orderly (s.store config event) ∧ Extends s (s.store config event) ∧
      Publishes s (s.store config event) := by
  have staged := orderly.staged
  rw [stage] at staged
  obtain ⟨positive, less⟩ := staged
  have published : s.published = s.sequence - 1 := by
    unfold Server.published
    rw [stage]
  unfold Server.store
  dsimp only
  split
  · refine ⟨⟨orderly.ascending, orderly.readable, orderly.pending, orderly.safe, ?_⟩,
      .of_same rfl ?_, .silent rfl fun topics n => live_of_same rfl ?_ ?_⟩
    · exact fun record listed => Nat.le_of_lt (less record listed)
    · rw [published]
      exact Nat.sub_le _ _
    · rw [published]
      exact Nat.sub_le _ _
    · intro record listed _
      have early := less record listed
      rw [published]
      omega
  · have last : Server.zadd s.stored (recordOf event s.sequence) =
        s.stored ++ [recordOf event s.sequence] := zadd_last less
    rw [last]
    have fresh : s.published < s.sequence := by omega
    refine ⟨⟨?_, ?_, orderly.pending, orderly.safe, ?_⟩, ⟨?_, [_], rfl, ?_⟩,
      .silent rfl fun topics n => ?_⟩
    · exact orderly.ascending.append less
    · intro record listed
      rcases List.mem_append.mp listed with before | last
      · exact orderly.readable record before
      · obtain ⟨persisted, named⟩ := orderly.pending event (pending ▸ List.mem_cons_self)
        rw [List.mem_singleton.mp last]
        exact readable_recordOf persisted named positive orderly.safe
    · exact ⟨event, later, s.stored, pending, rfl, rfl, positive, less⟩
    · exact Nat.le_of_eq published
    · intro record listed
      rw [List.mem_singleton.mp listed]
      exact fresh
    · have none : ¬s.sequence ≤ s.sequence - 1 := by omega
      unfold live Server.published
      rw [subscribed_append, List.filter_append, List.map_append, stage,
        List.append_right_eq_self, List.map_eq_nil_iff, List.filter_eq_nil_iff]
      intro record listed
      have last := List.mem_singleton.mp (List.mem_filter.mp listed).1
      simp only [last, recordOf, none, decide_false, Bool.and_false, Bool.false_eq_true,
        not_false_eq_true]

theorem hubPublish_link {sequence : Option Nat} (same : t.link = s.link) :
    (t.hubPublish event sequence).link = (s.hubPublish event sequence).link := by
  unfold Server.hubPublish
  rw [same]
  split
  · rfl
  · exact same

theorem hubPublish_rest (s : Server) (event : FepDispatchEvent) (sequence : Option Nat) :
    s.hubPublish event sequence = { s with link := (s.hubPublish event sequence).link } := by
  unfold Server.hubPublish
  split <;> rfl

theorem live_published {before : List StoredReplayEvent}
    (stored : s.stored = before ++ [record]) (same : t.stored = s.stored)
    (less : ∀ other ∈ before, other.sequence ≤ s.published) (fresh : s.published < record.sequence)
    (published : t.published = record.sequence) (topics : List String) (n : Nat) :
    live topics n t = live topics n s ++
      if isSubscribed topics record.topic && decide (n < record.sequence) then [record.sequence]
      else [] := by
  have old : ((subscribed topics before).filter fun other =>
      n < other.sequence && other.sequence ≤ record.sequence) =
      (subscribed topics before).filter fun other =>
        n < other.sequence && other.sequence ≤ s.published := by
    apply List.filter_congr
    intro other listed
    have early := less other (List.mem_filter.mp listed).1
    have late : other.sequence ≤ record.sequence := by omega
    simp only [early, late]
  have unpublished : ¬record.sequence ≤ s.published := by omega
  unfold live
  rw [same, stored, published, subscribed_append, List.filter_append, List.filter_append, old,
    List.map_append, List.map_append, List.append_assoc]
  congr 1
  unfold subscribed
  by_cases matched : isSubscribed topics record.topic = true <;> by_cases after : n < record.sequence <;>
    simp [matched, after, unpublished]

theorem orderly_settle (orderly : Orderly s) {record : Option StoredReplayEvent}
    (stage : s.stage = .appended record) (pending : s.pending = event :: later) :
    Orderly (s.settle event record) ∧ Extends s (s.settle event record) ∧
      Publishes s (s.settle event record) := by
  have staged := orderly.staged
  rw [stage] at staged
  have others : ∀ waiting ∈ s.pending.tail,
      shouldPersist waiting = true ∧ sseEventNames.contains waiting.event = true :=
    fun waiting listed => orderly.pending waiting (List.mem_of_mem_tail listed)
  unfold Server.settle
  rw [hubPublish_rest]
  cases record with
  | none =>
    have published : s.published = s.sequence := by
      unfold Server.published
      rw [stage]
    refine ⟨⟨orderly.ascending, orderly.readable, others, orderly.safe, staged⟩,
      .of_same rfl (Nat.le_of_eq published), .unstored _ (hubPublish_link rfl) fun topics n => ?_⟩
    exact live_of_same rfl (Nat.le_of_eq published) fun record _ => (published ▸ id)
  | some record =>
    obtain ⟨head, rest, before, first, rfl, stored, positive, less⟩ := staged
    rw [pending] at first
    cases first
    have published : s.published = s.sequence - 1 := by
      unfold Server.published
      rw [stage]
    have persisted := (orderly.pending event (pending ▸ List.mem_cons_self)).1
    refine ⟨⟨orderly.ascending, orderly.readable, others, orderly.safe, orderly.bounded⟩,
      .of_same rfl ?_, .stored _ s.sequence (hubPublish_link rfl)
        (Bool.and_eq_true_iff.mp persisted).1 ?_ fun topics n => ?_⟩
    · rw [published]
      exact Nat.sub_le _ _
    · omega
    · have early : ∀ other ∈ before, other.sequence ≤ s.published := by
        intro other listed
        have below := less other listed
        omega
      have fresh : s.published < (recordOf event s.sequence).sequence := by
        change s.published < s.sequence
        omega
      exact live_published (t := { s with pending := s.pending.tail, stage := .waiting, link := _ })
        stored rfl early fresh rfl topics n

theorem orderly_dispatch (orderly : Orderly s) (safe : isSafeInteger (s.sequence + 1) = true)
    (stepped : s.dispatch config = some t) : Orderly t ∧ Extends s t ∧ Publishes s t := by
  unfold Server.dispatch at stepped
  split at stepped
  next => nomatch stepped
  next stage =>
    cases stepped
    exact orderly_sequence orderly stage safe
  next pending stage =>
    cases stepped
    exact orderly_store orderly stage pending
  next pending stage =>
    cases stepped
    exact orderly_settle orderly stage pending

end Dispatch

/-- How far the scan is in the records after the header's sequence: every subscribed record of the
batches that were asked for was published before the connection was registered, and the results are
those among the records that were read. -/
def Progress (config : Config) (n : Nat) (topics : List String) (s : Server) (baseline : Nat) :
    Phase → Prop
  | .reading scanned left results =>
    scanned ≤ (storedAfter n s).length ∧
      (∀ record ∈ subscribed topics ((storedAfter n s).take scanned), record.sequence ≤ baseline) ∧
      ∃ read ≤ scanned,
        results = (subscribed topics ((storedAfter n s).take read)).map (·.sequence) ∧
        (left = (((storedAfter n s).take scanned).drop read).map (·.sequence) ∨
          left = [] ∧ config.maxReplayEvents ≤ results.length)
  | .ended results => results = (subscribed topics (early n baseline s)).map (·.sequence)
  | _ => False

def Sane (n : Nat) (s : Server) : Phase → Prop
  | .reading _ left _ => ∀ sequence ∈ left, ∃ record ∈ storedAfter n s, record.sequence = sequence
  | .broken => False
  | _ => True

section Scan
variable {config : Config} {n baseline scanned : Nat} {topics : List String} {s t : Server}
  {left results : List Nat}

theorem ascending_after (orderly : Orderly s) : Ascending (·.sequence) (storedAfter n s) :=
  orderly.ascending.filter _

variable {phase : Phase}

theorem Sane.extends (extends_ : Extends s t) (sane : Sane n s phase) : Sane n t phase := by
  obtain ⟨more, stored, -⟩ := extends_.storedAfter (n := n)
  cases phase with
  | reading scanned left results =>
    intro sequence listed
    obtain ⟨record, there, same⟩ := sane sequence listed
    exact ⟨record, stored ▸ List.mem_append_left _ there, same⟩
  | broken => exact sane
  | _ => trivial

theorem Progress.extends (extends_ : Extends s t) (before : baseline ≤ s.published)
    (progress : Progress config n topics s baseline phase) :
    Progress config n topics t baseline phase := by
  cases phase with
  | reading scanned left results =>
    obtain ⟨bounded, early, read, order, found, rest⟩ := progress
    obtain ⟨more, stored, -⟩ := extends_.storedAfter (n := n)
    have same : ∀ count ≤ scanned, (storedAfter n t).take count = (storedAfter n s).take count := by
      intro count small
      rw [stored, List.take_append_of_le_length (small.trans bounded)]
    simp only [Progress]
    rw [same scanned (Nat.le_refl _)]
    refine ⟨?_, early, read, order, ?_, rest⟩
    · rw [stored, List.length_append]
      omega
    · rw [same read order]
      exact found
  | ended results =>
    simp only [Progress]
    rw [extends_.early before]
    exact progress
  | _ => exact progress

theorem subscribed_early {records : List StoredReplayEvent}
    (early : ∀ record ∈ subscribed topics records, record.sequence ≤ baseline) :
    subscribed topics (records.filter fun record => record.sequence ≤ baseline) =
      subscribed topics records := by
  unfold subscribed
  rw [List.filter_comm]
  apply List.filter_eq_self.mpr
  exact fun record listed => decide_eq_true (early record listed)

theorem found_of_scanned (orderly : Orderly s)
    (only : ∀ record ∈ subscribed topics ((storedAfter n s).take scanned), record.sequence ≤ baseline)
    (enough : (early n baseline s).length ≤ scanned) :
    subscribed topics ((storedAfter n s).take scanned) = subscribed topics (early n baseline s) := by
  rw [← subscribed_early only]
  congr 1
  exact take_filter_le (ascending_after orderly) enough

theorem found_of_full {read : Nat} (order : read ≤ scanned)
    (only : ∀ record ∈ subscribed topics ((storedAfter n s).take scanned), record.sequence ≤ baseline)
    (full : (subscribed topics (early n baseline s)).length ≤
      (subscribed topics ((storedAfter n s).take read)).length) :
    subscribed topics ((storedAfter n s).take read) = subscribed topics (early n baseline s) := by
  have part : ((storedAfter n s).take read).Sublist ((storedAfter n s).take scanned) := by
    have prefix_ : (storedAfter n s).take read <+: (storedAfter n s).take scanned :=
      List.take_prefix_take_left order
    exact prefix_.sublist
  have early : ∀ record ∈ subscribed topics ((storedAfter n s).take read),
      record.sequence ≤ baseline := fun record listed => only record ((part.filter _).mem listed)
  apply List.Sublist.eq_of_length_le _ full
  rw [← subscribed_early early]
  exact ((List.take_sublist read _).filter _).filter _

theorem Progress.sends {events : List StoredReplayEvent} (orderly : Orderly s)
    (scannable : (early n baseline s).length ≤ config.maxScanEvents)
    (replayable : (subscribed topics (early n baseline s)).length ≤ config.maxReplayEvents)
    (progress : Progress config n topics s baseline phase)
    (allowed : phase.allows config n topics (.sendReplayed events)) :
    events.map (·.sequence) = (subscribed topics (early n baseline s)).map (·.sequence) := by
  cases phase with
  | ended results =>
    rw [(allowed : events.map (·.sequence) = results)]
    exact progress
  | reading scanned left results =>
    obtain ⟨-, only, read, order, found, rest⟩ := progress
    cases left with
    | cons next left => nomatch allowed
    | nil =>
      obtain ⟨sent, stops⟩ := allowed
      rw [sent, found]
      congr 1
      have length : results.length = (subscribed topics ((storedAfter n s).take read)).length := by
        rw [found, List.length_map]
      by_cases full : config.maxReplayEvents ≤ results.length
      · exact found_of_full order only (by omega)
      have all : read = scanned ∨ (storedAfter n s).length ≤ read := by
        rcases rest with none | cut
        · have empty := List.drop_eq_nil_iff.mp (List.map_eq_nil_iff.mp none.symm)
          rw [List.length_take] at empty
          omega
        · exact absurd cut.2 full
      have whole : (storedAfter n s).take read = (storedAfter n s).take scanned := by
        rcases all with rfl | short
        · rfl
        · rw [List.take_of_length_le short, List.take_of_length_le (short.trans order)]
      rw [whole]
      by_cases more : scanned < config.maxScanEvents
      · have nothing : topics = [] := stops ⟨by omega, more⟩
        have empty : ∀ records : List StoredReplayEvent, subscribed topics records = [] := by
          intro records
          rw [nothing]
          exact List.filter_eq_nil_iff.mpr fun _ _ none => nomatch none
        rw [empty, empty]
      · exact found_of_scanned orderly only (by omega)
  | outside | broken | done => exact progress.elim

theorem Progress.batch (orderly : Orderly s) (bounded : config.Bounded)
    (progress : Progress config n topics s baseline (.reading scanned [] results))
    (goesOn : GoesOn config scanned results) {count : Nat}
    (size : count = min config.scanBatchSize (config.maxScanEvents - scanned))
    (early : ∀ record ∈ subscribed topics (((storedAfter n s).drop scanned).take count),
      record.sequence ≤ baseline) :
    let members := (((storedAfter n s).drop scanned).take count).map (·.sequence)
    if members.isEmpty then Progress config n topics s baseline (.ended results)
    else Progress config n topics s baseline (.reading (scanned + members.length) members results) := by
  intro members
  obtain ⟨length, only, read, order, found, rest⟩ := progress
  have all : read = scanned := by
    rcases rest with none | cut
    · have empty := List.drop_eq_nil_iff.mp (List.map_eq_nil_iff.mp none.symm)
      rw [List.length_take] at empty
      omega
    · have more := goesOn.1
      omega
  subst all
  have some : 0 < count := by
    have batch := bounded.batch
    have more := goesOn.2
    omega
  split
  next empty =>
    have finished : (storedAfter n s).length ≤ read := by
      rw [List.isEmpty_iff, List.map_eq_nil_iff, List.take_eq_nil_iff, List.drop_eq_nil_iff] at empty
      omega
    simp only [Progress]
    rw [found]
    congr 1
    apply found_of_scanned orderly only
    have few : (ReplayRequests.early n baseline s).length ≤ (storedAfter n s).length :=
      List.length_filter_le _ _
    omega
  next =>
    have size : members.length = min count ((storedAfter n s).length - read) := by
      rw [List.length_map, List.length_take, List.length_drop]
    have cut : (storedAfter n s).take (read + members.length) =
        (storedAfter n s).take read ++ ((storedAfter n s).drop read).take count := by
      rw [List.take_add]
      congr 1
      rw [size, ← List.length_drop, ← List.take_eq_take_min]
    refine ⟨by omega, ?_, read, by omega, found, .inl ?_⟩
    · rw [cut, subscribed_append]
      intro record listed
      rcases List.mem_append.mp listed with before | new
      · exact only record before
      · exact early record new
    · rw [cut, List.drop_left' (by rw [List.length_take]; omega)]

theorem readNext_stored (orderly : Orderly s) {record : StoredReplayEvent}
    (listed : record ∈ storedAfter n s) :
    readNext config topics scanned left results (s.stored.find? (·.sequence = record.sequence)) =
      if !isSubscribed topics record.topic then .reading scanned left results
      else if (results ++ [record.sequence]).length ≥ config.maxReplayEvents then
        .reading scanned [] (results ++ [record.sequence])
      else .reading scanned left (results ++ [record.sequence]) := by
  have stored := (List.mem_filter.mp listed).1
  obtain ⟨found, parsed, same, matched⟩ := orderly.readable record stored
  unfold readNext
  rw [orderly.ascending.find stored, Option.bind_some, parsed]
  dsimp only
  rw [same, matched]

theorem Progress.read {next : Nat} (orderly : Orderly s)
    (progress : Progress config n topics s baseline (.reading scanned (next :: left) results)) :
    Progress config n topics s baseline (readNext config topics scanned left results
      (s.stored.find? (·.sequence = next))) := by
  obtain ⟨length, only, read, order, found, rest⟩ := progress
  obtain ⟨record, others, drop, same, tail⟩ : ∃ record others,
      ((storedAfter n s).take scanned).drop read = record :: others ∧ record.sequence = next ∧
        others.map (·.sequence) = left := by
    rcases rest with listed | cut
    · exact List.map_eq_cons_iff.mp listed.symm
    · nomatch cut.1
  subst same tail
  have more : read < scanned := by
    have some := congrArg List.length drop
    rw [List.length_drop, List.length_take, List.length_cons] at some
    omega
  have whole : (storedAfter n s).take scanned = (storedAfter n s).take read ++ record :: others := by
    have parts := List.take_append_drop read ((storedAfter n s).take scanned)
    rw [drop, List.take_take, Nat.min_eq_left order] at parts
    exact parts.symm
  have step : (storedAfter n s).take (read + 1) = (storedAfter n s).take read ++ [record] := by
    have upTo : (storedAfter n s).take (read + 1) =
        ((storedAfter n s).take scanned).take (read + 1) := by
      rw [List.take_take, Nat.min_eq_left more]
    have short : ((storedAfter n s).take read).length = read := by
      rw [List.length_take]
      omega
    rw [upTo, whole, List.take_append, short, List.take_of_length_le (by omega)]
    simp
  have remaining : ((storedAfter n s).take scanned).drop (read + 1) = others := by
    rw [← List.drop_drop, drop]
    rfl
  have listed : record ∈ storedAfter n s := by
    apply List.mem_of_mem_take (i := scanned)
    rw [whole]
    exact List.mem_append_right _ List.mem_cons_self
  rw [readNext_stored orderly listed]
  have after : subscribed topics ((storedAfter n s).take (read + 1)) =
      subscribed topics ((storedAfter n s).take read) ++ subscribed topics [record] := by
    rw [step, subscribed_append]
  split
  next other =>
    refine ⟨length, only, read + 1, more, ?_, .inl (by rw [remaining])⟩
    have skipped : subscribed topics [record] = [] :=
      List.filter_eq_nil_iff.mpr fun _ single => by
        rw [List.mem_singleton.mp single]
        simpa using other
    rw [found, after, skipped, List.append_nil]
  next matched =>
    have taken : subscribed topics [record] = [record] :=
      List.filter_eq_self.mpr fun _ single => by
        rw [List.mem_singleton.mp single]
        simpa using matched
    have now : results ++ [record.sequence] =
        (subscribed topics ((storedAfter n s).take (read + 1))).map (·.sequence) := by
      rw [found, after, taken, List.map_append]
      rfl
    split
    next full => exact ⟨length, only, read + 1, more, now, .inr ⟨rfl, full⟩⟩
    next => exact ⟨length, only, read + 1, more, now, .inl (by rw [remaining])⟩

theorem Sane.read {next : Nat} (orderly : Orderly s)
    (sane : Sane n s (.reading scanned (next :: left) results)) :
    Sane n s (readNext config topics scanned left results (s.stored.find? (·.sequence = next))) := by
  obtain ⟨record, listed, rfl⟩ := sane next List.mem_cons_self
  have others : ∀ sequence ∈ left, ∃ record ∈ storedAfter n s, record.sequence = sequence :=
    fun sequence later => sane sequence (List.mem_cons_of_mem _ later)
  rw [readNext_stored orderly listed]
  split
  · exact others
  split
  · exact fun _ none => nomatch none
  · exact others

theorem Sane.batch (orderly : Orderly s) (low offset count : Nat) :
    let members := (((storedAfter low s).drop offset).take count).map (·.sequence)
    (∀ sequence ∈ members, ∃ record ∈ storedAfter low s, record.sequence = sequence) ∧
      members.any (isStale low) = false := by
  intro members
  have stored : ∀ sequence ∈ members, ∃ record ∈ storedAfter low s, record.sequence = sequence := by
    intro sequence listed
    obtain ⟨record, there, same⟩ := List.mem_map.mp listed
    exact ⟨record, List.mem_of_mem_drop (List.mem_of_mem_take there), same⟩
  refine ⟨stored, List.any_eq_false.mpr fun sequence listed => ?_⟩
  obtain ⟨record, there, rfl⟩ := stored sequence listed
  obtain ⟨listed, after⟩ := List.mem_filter.mp there
  have above := of_decide_eq_true after
  have below := orderly.bounded record listed
  have safe := of_decide_eq_true orderly.safe
  unfold isStale isSafeInteger
  simp only [Bool.or_eq_true, Bool.not_eq_true', decide_eq_false_iff_not, decide_eq_true_eq]
  omega

end Scan

end MastopodFederation.Guarantees.ReplayProgress
