import MastopodFederation.Guarantees.ReplayRecords
import MastopodFederation.Lib.Ascending

/-!
# What a reconnect asks for

What a connection that replays should receive, the hand-overs that its scan and the caps allow,
and the calls that the handling of a reconnect makes: it registers, reads the store in batches
and sends what it found.
-/
namespace MastopodFederation.Guarantees.ReplayRequests
open Lib.Calls Lib.WorkerPool Lib.PoolRuns
open Source.Fep3ab2ReplayStore

abbrev ReplayPool := Pool Server Unit Call Reply Empty Unit

section Spec
variable (topics : List String)

def subscribed (records : List StoredReplayEvent) : List StoredReplayEvent :=
  records.filter fun record => isSubscribed topics record.topic

def live (low : Nat) (s : Server) : List Nat :=
  ((subscribed topics s.stored).filter fun record =>
    low < record.sequence && record.sequence ≤ s.published).map (·.sequence)

def sequences (deliveries : List Delivery) : List Nat := deliveries.filterMap (·.sequence)

end Spec

def storedAfter (lastSequence : Nat) (s : Server) : List StoredReplayEvent :=
  s.stored.filter fun record => lastSequence < record.sequence

def early (lastSequence baseline : Nat) (s : Server) : List StoredReplayEvent :=
  (storedAfter lastSequence s).filter fun record => record.sequence ≤ baseline

/-- The caps do not cut off what is published when the connection is registered, no batch holds a
subscribed event that is published later, calls run to their end and sequences stay exact. -/
def HandsOver (config : Config) (lastSequence : Nat) (topics : List String) (pool : ReplayPool) :
    Label Unit Event Call Reply Empty Unit → Prop
  | .call i =>
    match pool.workers i with
    | some ⟨_, .call (.registerConnection ..) _⟩ =>
      (early lastSequence pool.shared.published pool.shared).length ≤ config.maxScanEvents ∧
        (subscribed topics (early lastSequence pool.shared.published pool.shared)).length ≤
          config.maxReplayEvents
    | some ⟨_, .call (.zrangebyscore _ offset count) _⟩ =>
      match pool.shared.link with
      | .registered connection =>
        ∀ record ∈ subscribed topics (((storedAfter lastSequence pool.shared).drop offset).take count),
          record.sequence ≤ connection.baseline
      | _ => True
    | _ => True
  | .stop i => finished (pool.workers i) = true
  | .act .dispatch => isSafeInteger (pool.shared.sequence + 1) = true
  | _ => True

inductive Phase where
  | outside
  /-- `left` are the members of the batch that are not read yet -/
  | reading (scanned : Nat) (left results : List Nat)
  /-- the last batch was empty -/
  | ended (results : List Nat)
  /-- a record was gone or could not be parsed -/
  | broken
  | done
  deriving DecidableEq

section Monitor
variable (config : Config) (lastSequence : Nat) (topics : List String)

def GoesOn (scanned : Nat) (results : List Nat) : Prop :=
  results.length < config.maxReplayEvents ∧ scanned < config.maxScanEvents

def Phase.allows : Phase → Call → Prop
  | .outside, .registerConnection _ subscriptions paused => subscriptions = topics ∧ paused = true
  | .reading scanned [] results, .zrangebyscore low offset count =>
    low = lastSequence ∧ offset = scanned ∧ GoesOn config scanned results ∧
      count = min config.scanBatchSize (config.maxScanEvents - scanned)
  | .reading scanned [] results, .sendReplayed events =>
    events.map (·.sequence) = results ∧ (GoesOn config scanned results → topics = [])
  | .reading _ (next :: _) _, .getEvent sequence => sequence = next
  | .ended results, .sendReplayed events => events.map (·.sequence) = results
  | .broken, .registerConnection .. => False
  | .broken, _ => True
  | _, _ => False

def readNext (scanned : Nat) (left results : List Nat) (record : Option StoredReplayEvent) : Phase :=
  match record.bind parseRecord with
  | none => .broken
  | some found =>
    if !isSubscribed topics found.topic then .reading scanned left results
    else if (results ++ [found.sequence]).length ≥ config.maxReplayEvents then
      .reading scanned [] (results ++ [found.sequence])
    else .reading scanned left (results ++ [found.sequence])

def isStale (sequence : Nat) : Bool := !isSafeInteger sequence || sequence ≤ lastSequence

def Phase.after : Phase → (c : Call) → Reply c → Phase
  | .outside, .registerConnection .., _ => .reading 0 [] []
  | .reading scanned _ results, .zrangebyscore .., (members : List Nat) =>
    if members.isEmpty then .ended results
    else if members.any (isStale lastSequence) then .broken
    else .reading (scanned + members.length) members results
  | .reading scanned left results, .getEvent _, (record : Option StoredReplayEvent) =>
    readNext config topics scanned left.tail results record
  | _, .sendReplayed _, _ => .done
  | phase, _, _ => phase

def replayMonitor : Monitor Call Reply Phase where
  allows phase c := phase.allows config lastSequence topics c
  after phase c reply := phase.after config lastSequence topics c reply

end Monitor

section Requests
variable {config : Config} {lastSequence : Nat} {topics : List String} {α : Type} {phase : Phase}
  {post : Phase → Except Empty α → Prop} {next : Option StoredReplayEvent → Run α}

theorem meets_getEvent {sequence : Nat} :
    Meets (replayMonitor config lastSequence topics) (getEvent sequence >>= next) post phase ↔
      phase.allows config lastSequence topics (.getEvent sequence) ∧
        ∀ record, Meets (replayMonitor config lastSequence topics) (next record) post
          (phase.after config lastSequence topics (.getEvent sequence) record) := Iff.rfl

theorem meets_zrangebyscore {low offset count : Nat} {next : List Nat → Run α} :
    Meets (replayMonitor config lastSequence topics) (zrangebyscore low offset count >>= next)
        post phase ↔
      phase.allows config lastSequence topics (.zrangebyscore low offset count) ∧
        ∀ members, Meets (replayMonitor config lastSequence topics) (next members) post
          (phase.after config lastSequence topics (.zrangebyscore low offset count) members) :=
  Iff.rfl

theorem only_getEvent {P : Call → Prop} {sequence : Nat} (admitted : P (.getEvent sequence))
    (rest : ∀ record, Only P (next record)) : Only P (getEvent sequence >>= next) := ⟨admitted, rest⟩

theorem only_zrangebyscore {P : Call → Prop} {low offset count : Nat} {next : List Nat → Run α}
    (admitted : P (.zrangebyscore low offset count)) (rest : ∀ members, Only P (next members)) :
    Only P (zrangebyscore low offset count >>= next) := ⟨admitted, rest⟩

abbrev Scans : Call → Prop
  | .registerConnection .. | .sendReplayed _ => False
  | _ => True

theorem readMembers_scans (members : List Nat) :
    ∀ scan : Scan, Only Scans (readMembers config lastSequence topics scan members) := by
  induction members with
  | nil => exact fun _ => trivial
  | cons sequence members ih =>
    intro scan
    unfold readMembers
    split
    · exact ih _
    apply only_bind
    · unfold readPersistedRecord
      refine only_getEvent trivial fun record => ?_
      split
      · trivial
      split
      · exact ⟨trivial, fun _ => trivial⟩
      · trivial
    intro record
    split
    · exact ih _
    split
    · exact ih _
    dsimp only
    split
    · trivial
    · exact ih _

theorem scanBatches_scans (rounds : Nat) : ∀ (scanned : Nat) (scan : Scan),
    Only Scans (scanBatches config lastSequence topics rounds scanned scan) := by
  induction rounds with
  | zero => exact fun _ _ => trivial
  | succ rounds ih =>
    intro scanned scan
    unfold scanBatches
    split
    · refine only_zrangebyscore trivial fun members => ?_
      split
      · trivial
      · exact only_bind (readMembers_scans members scan) fun _ => ih _ _
    · trivial

theorem broken_keeps {x : Run α} (only : Only Scans x) :
    Meets (replayMonitor config lastSequence topics) x (fun t _ => t = .broken) .broken := by
  have keeps : Keeps (replayMonitor config lastSequence topics) (· = .broken) x := by
    apply only.keeps
    · rintro s c scans rfl
      cases c with
      | registerConnection | sendReplayed => nomatch scans
      | _ => trivial
    · rintro s c reply scans rfl
      cases c with
      | registerConnection | sendReplayed => nomatch scans
      | _ => rfl
  exact keeps _ rfl

def Found (scanned : Nat) (scan : Scan) (phase : Phase) : Prop :=
  (phase = .reading scanned [] (scan.results.map (·.sequence)) ∧ scan.staleMembers = []) ∨
    phase = .broken

theorem readMembers_meets {scanned : Nat} (members : List Nat) :
    ∀ scan : Scan, (∀ member ∈ members, isStale lastSequence member = false) →
      scan.staleMembers = [] →
      Meets (replayMonitor config lastSequence topics)
        (readMembers config lastSequence topics scan members)
        (Ends (fun _ _ => True) (Found scanned))
        (.reading scanned members (scan.results.map (·.sequence))) := by
  induction members with
  | nil => exact fun scan _ clean => .inl ⟨rfl, clean⟩
  | cons sequence members ih =>
    intro scan exact_ clean
    have own := exact_ sequence List.mem_cons_self
    have others : ∀ member ∈ members, isStale lastSequence member = false :=
      fun member listed => exact_ member (List.mem_cons_of_mem _ listed)
    have lost : ∀ scan : Scan, Meets (replayMonitor config lastSequence topics)
        (readMembers config lastSequence topics scan members)
        (Ends (fun _ _ => True) (Found scanned)) .broken := by
      intro scan
      refine Meets.imp (broken_keeps (readMembers_scans members scan)) fun t outcome broken => ?_
      rw [broken]
      cases outcome with
      | ok found => exact .inr rfl
      | error none => exact none.elim
    unfold readMembers readPersistedRecord
    unfold isStale at own
    rw [own, if_neg Bool.false_ne_true, meets_bind]
    refine meets_getEvent.mpr ⟨rfl, fun record => ?_⟩
    simp only [Phase.after, List.tail_cons]
    cases record with
    | none => exact lost _
    | some raw =>
      unfold readNext
      rw [Option.bind_some]
      dsimp only
      cases parseRecord raw with
      | none => exact ⟨trivial, fun _ => lost _⟩
      | some record =>
        dsimp only
        rw [meets_pure, then_ok]
        dsimp only
        split
        · exact ih scan others clean
        have same : scan.results.map (·.sequence) ++ [record.sequence] =
            (scan.results ++ [record]).map (·.sequence) := by simp
        rw [same, List.length_map]
        split
        · exact .inl ⟨rfl, clean⟩
        · exact ih { scan with results := scan.results ++ [record] } others clean

def Scanned (config : Config) (scan : Scan) (phase : Phase) : Prop :=
  ((∃ scanned, phase = .reading scanned [] (scan.results.map (·.sequence)) ∧
      ¬GoesOn config scanned (scan.results.map (·.sequence))) ∨
    phase = .ended (scan.results.map (·.sequence))) ∧ scan.staleMembers = [] ∨ phase = .broken

theorem scanBatches_meets (rounds : Nat) : ∀ (scanned : Nat) (scan : Scan),
    config.maxScanEvents ≤ rounds + scanned → scan.staleMembers = [] →
      Meets (replayMonitor config lastSequence topics)
        (scanBatches config lastSequence topics rounds scanned scan)
        (Ends (fun _ _ => True) (Scanned config))
        (.reading scanned [] (scan.results.map (·.sequence))) := by
  induction rounds with
  | zero =>
    intro scanned scan enough clean
    refine .inl ⟨.inl ⟨scanned, rfl, fun goesOn => ?_⟩, clean⟩
    have more := goesOn.2
    omega
  | succ rounds ih =>
    intro scanned scan enough clean
    unfold scanBatches
    split
    next goesOn =>
      have same : GoesOn config scanned (scan.results.map (·.sequence)) := by
        unfold GoesOn
        rw [List.length_map]
        exact goesOn
      refine meets_zrangebyscore.mpr ⟨⟨rfl, rfl, same, rfl⟩, fun members => ?_⟩
      simp only [Phase.after]
      split
      · exact .inl ⟨.inr rfl, clean⟩
      next some =>
        have progress : 0 < members.length := List.length_pos_iff.mpr (by simpa using some)
        split
        next stale =>
          have reads : Only Scans (readMembers config lastSequence topics scan members) :=
            readMembers_scans members scan
          have scans := only_bind reads fun scan => (scanBatches_scans rounds _ scan :
            Only Scans (scanBatches config lastSequence topics rounds (scanned + members.length) scan))
          refine Meets.imp (broken_keeps scans) fun t outcome broken => ?_
          rw [broken]
          cases outcome with
          | ok found => exact .inr rfl
          | error none => exact none.elim
        next fresh =>
          have clear : ∀ member ∈ members, isStale lastSequence member = false := by
            intro member listed
            by_contra stale
            exact fresh (List.any_eq_true.mpr ⟨member, listed, by simpa using stale⟩)
          refine ends_bind (readMembers_meets members scan clear clean) fun scan t found => ?_
          rcases found with ⟨rfl, clean⟩ | rfl
          · exact ih _ _ (by omega) clean
          · refine Meets.imp (broken_keeps (scanBatches_scans _ _ _)) fun t outcome broken => ?_
            rw [broken]
            cases outcome with
            | ok found => exact .inr rfl
            | error none => exact none.elim
    next ended =>
      refine .inl ⟨.inl ⟨scanned, rfl, fun goesOn => ended ?_⟩, clean⟩
      unfold GoesOn at goesOn
      rw [List.length_map] at goesOn
      exact goesOn

theorem meets_registerConnection {principal : String} {subscriptions : List String} {paused : Bool}
    {next : Unit → Run α} :
    Meets (replayMonitor config lastSequence topics)
        (registerConnection principal subscriptions paused >>= next) post phase ↔
      phase.allows config lastSequence topics (.registerConnection principal subscriptions paused) ∧
        ∀ reply, Meets (replayMonitor config lastSequence topics) (next reply) post
          (phase.after config lastSequence topics
            (.registerConnection principal subscriptions paused) reply) := Iff.rfl

theorem meets_zrem {members : List Nat} {next : Unit → Run α} :
    Meets (replayMonitor config lastSequence topics) (zrem members >>= next) post phase ↔
      phase.allows config lastSequence topics (.zrem members) ∧
        ∀ reply, Meets (replayMonitor config lastSequence topics) (next reply) post
          (phase.after config lastSequence topics (.zrem members) reply) := Iff.rfl

theorem meets_sendReplayed {events : List StoredReplayEvent}
    {post : Phase → Except Empty Unit → Prop} :
    Meets (replayMonitor config lastSequence topics) (sendReplayed events) post phase ↔
      phase.allows config lastSequence topics (.sendReplayed events) ∧
        ∀ reply, post (phase.after config lastSequence topics (.sendReplayed events) reply)
          (.ok reply) := Iff.rfl

def Sendable (config : Config) (lastSequence : Nat) (topics : List String)
    (events : List StoredReplayEvent) (phase : Phase) : Prop :=
  phase.allows config lastSequence topics (.sendReplayed events)

theorem scanned_sendable {scan : Scan} (scanned : Scanned config scan phase) :
    Sendable config lastSequence topics scan.results phase := by
  rcases scanned with ⟨⟨k, rfl, stops⟩ | rfl, -⟩ | rfl
  · exact ⟨rfl, fun goesOn => absurd goesOn stops⟩
  · exact rfl
  · trivial

variable {lastEventId : Option String}

theorem replayAfter_meets (header : parseReplayEventId lastEventId = some lastSequence) :
    Meets (replayMonitor config lastSequence topics) (replayAfter config topics lastEventId)
      (Ends (fun _ _ => True) (Sendable config lastSequence topics)) (.reading 0 [] []) := by
  unfold replayAfter
  rw [header]
  dsimp only
  split
  next none => exact ⟨rfl, fun _ => List.isEmpty_iff.mp none⟩
  refine ends_bind (scanBatches_meets config.maxScanEvents 0 ⟨[], []⟩ (by omega) rfl)
    fun scan t scanned => ?_
  split
  next stale =>
    have broken : t = .broken := by
      rcases scanned with ⟨-, clean⟩ | broken
      · rw [clean] at stale
        nomatch stale
      · exact broken
    rw [broken]
    exact meets_zrem.mpr ⟨trivial, fun _ => trivial⟩
  · exact scanned_sendable scanned

def Over (phase : Phase) : Prop := phase = .done

theorem openStream_obeys {principal : String}
    (header : parseReplayEventId lastEventId = some lastSequence) :
    ObeysTo (replayMonitor config lastSequence topics) Over
      (openStream config topics lastEventId principal) .outside := by
  unfold openStream
  rw [header]
  refine meets_registerConnection.mpr ⟨⟨rfl, rfl⟩, fun _ => ?_⟩
  dsimp only [Option.isSome]
  rw [if_pos rfl, meets_bind]
  refine Meets.imp (replayAfter_meets header) fun t outcome sendable => ?_
  cases outcome with
  | error none => exact none.elim
  | ok events =>
    refine meets_sendReplayed.mpr ⟨sendable, fun _ => ?_⟩
    cases t with
    | outside | done => nomatch sendable
    | _ => rfl

end Requests

end MastopodFederation.Guarantees.ReplayRequests
