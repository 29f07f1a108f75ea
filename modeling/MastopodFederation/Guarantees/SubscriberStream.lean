import Mathlib
import MastopodFederation.Source.FirehosePublisher
import MastopodFederation.Guarantees.CursorStoreLog

/-!
# What a firehose subscriber is sent

AtFirehoseSubscriptionManager.ts promises delivery "in the order they were appended to the
cursor store" and a replay of "all events after that cursor before switching to live delivery".
Both hold as long as publications complete in the order of their numbers and none of them is
appended or announced while a replay runs.
-/
namespace MastopodFederation.Guarantees.SubscriberStream
open Lib.GuardedRun Source.FirehoseCursorStore Source.FirehosePublisher CursorStoreLog

abbrev Events := List FirehoseEventEnvelope

def above (cursor : Nat) (events : Events) : Events := events.filter fun e => cursor < e.seq

def upTo (cursor : Nat) (events : Events) : Events := events.filter fun e => e.seq ≤ cursor

def stream (history : Events) (cursor : Nat) : Events := above cursor (history.insertionSort bySeq)

def announces : Stage → Bool
  | .broadcasting _ => true
  | _ => false

def Awaits (s : Firehose) : Prop := ∃ p ∈ s.publications, announces p.stage = true

/-- Every attachment with a cursor is sent the events after it once and in order, all of
them where it is live and nothing waits for its announcement; attaching again after the
last event received misses nothing. -/
structure GapFree (s : Firehose) : Prop where
  inOrder : ∀ sub ∈ s.subscriptions, ∀ cursor, sub.cursor = some cursor →
    above cursor sub.received <+: stream s.history cursor
  complete : ∀ i sub, s.subscriptions[i]? = some sub → s.registered i sub = true →
    sub.replay = .finished → ¬Awaits s → ∀ cursor, sub.cursor = some cursor →
      above cursor sub.received = stream s.history cursor
  rejoins : ∀ sub ∈ s.subscriptions, ∀ cursor last, sub.cursor = some cursor →
    sub.received.getLast? = some last → cursor < last.seq →
      above cursor sub.received ++ stream s.history last.seq = stream s.history cursor

/-- The step keeps publications in the order of their numbers and apart from replays, and
an attachment asks for events the store still has. -/
def InTurn (s : Firehose) : Label → Prop
  | .appended seq =>
    (∀ p ∈ s.publications, seq ≤ p.seq) ∧ ∀ sub ∈ s.subscriptions, sub.replay = .finished
  | .attach _ (some (.ofNat cursor)) =>
    (∀ p ∈ s.publications, announces p.stage = false) ∧
      ∀ e ∈ s.history, cursor < e.seq → e.seq ∈ s.store.index
  | _ => True

instance (s : Firehose) (label : Label) : Decidable (InTurn s label) := by
  unfold InTurn
  split <;> infer_instance

section Lists
variable {events rest : Events} {e : FirehoseEventEnvelope} {cursor c : Nat}

theorem above_append (left right : Events) :
    above c (left ++ right) = above c left ++ above c right := List.filter_append ..

theorem above_above (le : c ≤ cursor) : above cursor (above c events) = above cursor events := by
  unfold above
  rw [List.filter_filter]
  apply List.filter_congr
  intro e _
  simp only [Bool.and_eq_decide, decide_eq_true_eq, decide_eq_decide]
  omega

theorem upTo_above (sorted : InOrder events) (cursor : Nat) :
    upTo cursor events ++ above cursor events = events := by
  induction events with
  | nil => rfl
  | cons e rest ih =>
    obtain ⟨first, later⟩ := List.pairwise_cons.mp sorted
    by_cases reached : e.seq ≤ cursor
    · have kept := ih later
      unfold upTo above at kept ⊢
      rw [List.filter_cons_of_pos (by simpa using reached),
        List.filter_cons_of_neg (by simpa using reached), List.cons_append, kept]
    · have none : upTo cursor (e :: rest) = [] := by
        apply List.filter_eq_nil_iff.mpr
        intro f listed
        rcases List.mem_cons.mp listed with rfl | found
        · simpa using reached
        · have := first f found
          simp only [decide_eq_true_eq]
          omega
      have all : above cursor (e :: rest) = e :: rest := by
        apply List.filter_eq_self.mpr
        intro f listed
        rcases List.mem_cons.mp listed with rfl | found
        · simpa using reached
        · have := first f found
          simp only [decide_eq_true_eq]
          omega
      rw [none, all, List.nil_append]

theorem upTo_prefix (sorted : InOrder events) (cursor : Nat) : upTo cursor events <+: events :=
  ⟨above cursor events, upTo_above sorted cursor⟩

theorem InOrder.above (sorted : InOrder events) : InOrder (above c events) := sorted.filter _

theorem above_cons (sorted : InOrder events) (next : above cursor events = e :: rest) :
    upTo e.seq events = upTo cursor events ++ [e] ∧ above e.seq events = rest ∧
      cursor < e.seq := by
  have later : cursor < e.seq := by
    have listed : e ∈ SubscriberStream.above cursor events := next ▸ List.mem_cons_self
    simpa using (List.mem_filter.mp listed).2
  have tail : SubscriberStream.above e.seq events = rest := by
    have ordered := InOrder.above (c := cursor) sorted
    rw [next] at ordered
    have after := (List.pairwise_cons.mp ordered).1
    rw [← above_above (Nat.le_of_lt later), next]
    unfold SubscriberStream.above
    rw [List.filter_cons_of_neg (by simp)]
    exact List.filter_eq_self.mpr fun f listed => decide_eq_true (after f listed)
  refine ⟨?_, tail, later⟩
  refine List.append_cancel_right (?_ : _ ++ rest = _ ++ rest)
  calc upTo e.seq events ++ rest
      _ = upTo e.seq events ++ SubscriberStream.above e.seq events := by rw [tail]
      _ = events := upTo_above sorted e.seq
      _ = upTo cursor events ++ SubscriberStream.above cursor events :=
        (upTo_above sorted cursor).symm
      _ = upTo cursor events ++ [e] ++ rest := by rw [next]; simp

theorem prefix_above {part : Events} (sorted : InOrder events) (isPrefix : part <+: events)
    (last : part.getLast? = some e) : part ++ above e.seq events = events := by
  obtain ⟨rest, rfl⟩ := isPrefix
  obtain ⟨front, rfl⟩ := List.getLast?_eq_some_iff.mp last
  have split := List.pairwise_append.mp sorted
  have before := List.pairwise_append.mp split.1
  have none : above e.seq (front ++ [e]) = [] := by
    apply List.filter_eq_nil_iff.mpr
    intro f listed
    rcases List.mem_append.mp listed with early | same
    · have := before.2.2 f early e (by simp)
      simp only [decide_eq_true_eq]
      omega
    · simp [List.mem_singleton.mp same]
  have all : above e.seq rest = rest := by
    apply List.filter_eq_self.mpr
    intro f listed
    exact decide_eq_true (split.2.2 e (by simp) f listed)
  rw [above_append, none, all, List.nil_append]

end Lists

/-- What publications in the order of their numbers keep true of the store, the counter
and the calls in flight. -/
structure Ordered (s : Firehose) : Prop where
  sorted : InOrder s.history
  kept : ∃ kept, Retains s.store kept ∧ kept <:+ s.history
  latest : s.store.latestSeq = Log.latestSeq s.history
  counted : ∀ counter, s.seqCounter = some counter →
    (∀ e ∈ s.history, e.seq ≤ counter) ∧ ∀ p ∈ s.publications, p.seq ≤ counter
  unstarted : s.seqCounter = none → s.publications = []
  distinct : (s.publications.map (·.seq)).Nodup
  ahead : ∀ p ∈ s.publications, announces p.stage = false → ∀ e ∈ s.history, e.seq < p.seq
  own : ∀ p ∈ s.publications, ∀ e, p.stage = .appending e ∨ p.stage = .broadcasting e →
    e.seq = p.seq
  last : ∀ p ∈ s.publications, ∀ e, p.stage = .broadcasting e → s.history.getLast? = some e

section Publisher
variable {s : Firehose} {p q : Publication} {seq : Nat} {e : FirehoseEventEnvelope}

theorem mem_publication (found : s.publication seq = some p) :
    p ∈ s.publications ∧ p.seq = seq :=
  ⟨List.mem_of_find?_eq_some found, by simpa using List.find?_some found⟩

theorem Ordered.unique (ordered : Ordered s) (listed : p ∈ s.publications)
    (other : q ∈ s.publications) (same : p.seq = q.seq) : p = q :=
  List.inj_on_of_nodup_map ordered.distinct listed other same

theorem ordered_initial (maxEvents : Nat) : Ordered (initial maxEvents) where
  sorted := List.Pairwise.nil
  kept := ⟨[], retains_empty maxEvents, List.suffix_refl []⟩
  latest := rfl
  counted _ started := nomatch started
  unstarted _ := rfl
  distinct := List.nodup_nil
  ahead _ listed := nomatch listed
  own _ listed := nomatch listed
  last _ listed := nomatch listed

theorem Ordered.initialised (ordered : Ordered s) (unstarted : s.seqCounter = none) :
    Ordered { s with seqCounter := some (initialSeqCounter s.store.latestSeq) } := by
  have idle := ordered.unstarted unstarted
  refine { ordered with counted := ?_, unstarted := nofun }
  rintro counter ⟨rfl⟩
  constructor
  · intro e listed
    change e.seq ≤ s.store.latestSeq
    rw [ordered.latest]
    exact le_latestSeq listed
  · intro p listed
    rw [idle] at listed
    nomatch listed

theorem Ordered.begin (ordered : Ordered s) {counter : Nat} (started : s.seqCounter = some counter)
    {serialised : Option String} {stage : Nat → Stage}
    (silent : announces (stage (nextSeq counter)) = false)
    (own : ∀ e, stage (nextSeq counter) = .appending e → e.seq = nextSeq counter) :
    Ordered (s.begin counter serialised stage) := by
  obtain ⟨history, running⟩ := ordered.counted counter started
  have least : ∀ p ∈ s.publications, p.seq < nextSeq counter := by
    intro p listed
    exact Nat.lt_succ_of_le (running p listed)
  constructor
  · exact ordered.sorted
  · exact ordered.kept
  · exact ordered.latest
  · rintro next ⟨rfl⟩
    constructor
    · intro e listed
      exact Nat.le_succ_of_le (history e listed)
    · intro p listed
      rcases List.mem_append.mp listed with before | new
      · exact Nat.le_of_lt (least p before)
      · rw [List.mem_singleton.mp new]
  · exact nofun
  · simp only [Firehose.begin, List.map_append, List.map_cons, List.map_nil]
    apply List.nodup_append.mpr
    refine ⟨ordered.distinct, List.nodup_singleton _, ?_⟩
    intro a listed b new
    obtain ⟨p, before, rfl⟩ := List.mem_map.mp listed
    rw [List.mem_singleton.mp new]
    exact Nat.ne_of_lt (least p before)
  · intro p listed quiet e appended
    rcases List.mem_append.mp listed with before | new
    · exact ordered.ahead p before quiet e appended
    · rw [List.mem_singleton.mp new]
      exact Nat.lt_succ_of_le (history e appended)
  · intro p listed e at_
    rcases List.mem_append.mp listed with before | new
    · exact ordered.own p before e at_
    · rw [List.mem_singleton.mp new] at at_ ⊢
      rcases at_ with appending | broadcasting
      · exact own e appending
      · have final : stage (nextSeq counter) = .broadcasting e := broadcasting
        rw [final] at silent
        nomatch silent
  · intro p listed e at_
    rcases List.mem_append.mp listed with before | new
    · exact ordered.last p before e at_
    · rw [List.mem_singleton.mp new] at at_
      have final : stage (nextSeq counter) = .broadcasting e := at_
      rw [final] at silent
      nomatch silent

theorem mem_setStage {stage : Stage} (listed : q ∈ s.setStage seq stage) :
    (q ∈ s.publications ∧ q.seq ≠ seq) ∨
      ∃ p ∈ s.publications, p.seq = seq ∧ q = { p with stage } := by
  obtain ⟨p, before, rfl⟩ := List.mem_map.mp listed
  by_cases same : p.seq = seq
  · exact .inr ⟨p, before, same, if_pos same⟩
  · rw [if_neg same]
    exact .inl ⟨before, same⟩

theorem setStage_seq (stage : Stage) :
    (s.setStage seq stage).map (·.seq) = s.publications.map (·.seq) := by
  unfold Firehose.setStage
  rw [List.map_map]
  apply List.map_congr_left
  intro p _
  simp only [Function.comp_apply]
  split <;> rfl

theorem Ordered.built (ordered : Ordered s) (listed : p ∈ s.publications)
    (building : announces p.stage = false) (own : e.seq = p.seq) :
    Ordered { s with publications := s.setStage p.seq (.appending e) } := by
  refine { ordered with counted := ?_, unstarted := ?_, distinct := ?_, ahead := ?_, own := ?_,
                        last := ?_ }
  · intro counter started
    obtain ⟨history, running⟩ := ordered.counted counter started
    refine ⟨history, fun q set => ?_⟩
    rcases mem_setStage set with ⟨before, -⟩ | ⟨p, before, -, rfl⟩
    · exact running q before
    · exact running p before
  · intro unstarted
    rw [ordered.unstarted unstarted] at listed
    nomatch listed
  · exact (setStage_seq _).symm ▸ ordered.distinct
  · intro q set quiet
    rcases mem_setStage set with ⟨before, -⟩ | ⟨other, before, same, rfl⟩
    · exact ordered.ahead q before quiet
    · rw [ordered.unique before listed same]
      exact ordered.ahead p listed building
  · intro q set f at_
    rcases mem_setStage set with ⟨before, -⟩ | ⟨other, before, same, rfl⟩
    · exact ordered.own q before f at_
    · rcases at_ with ⟨⟨⟩⟩ | ⟨⟨⟩⟩
      exact own.trans same.symm
  · intro q set f at_
    rcases mem_setStage set with ⟨before, -⟩ | ⟨other, before, same, rfl⟩
    · exact ordered.last q before f at_
    · nomatch at_

theorem Ordered.finish (ordered : Ordered s) :
    Ordered { s with publications := s.finish seq } := by
  have still : ∀ {p}, p ∈ s.finish seq → p ∈ s.publications :=
    fun listed => (List.mem_filter.mp listed).1
  refine { ordered with counted := ?_, unstarted := ?_, distinct := ?_, ahead := ?_, own := ?_,
                        last := ?_ }
  · intro counter started
    obtain ⟨history, running⟩ := ordered.counted counter started
    exact ⟨history, fun p listed => running p (still listed)⟩
  · intro unstarted
    simp [Firehose.finish, ordered.unstarted unstarted]
  · exact ordered.distinct.sublist (List.filter_sublist.map _)
  · exact fun p listed => ordered.ahead p (still listed)
  · exact fun p listed => ordered.own p (still listed)
  · exact fun p listed => ordered.last p (still listed)

theorem Ordered.quiet (ordered : Ordered s) (listed : p ∈ s.publications)
    (pending : announces p.stage = false) (first : ∀ q ∈ s.publications, p.seq ≤ q.seq) :
    ¬Awaits s := by
  rintro ⟨q, other, announced⟩
  cases at_ : q.stage with
  | broadcasting f =>
    have final := ordered.last q other f at_
    have behind := ordered.ahead p listed pending f (List.mem_of_getLast? final)
    have same := ordered.own q other f (.inr at_)
    have := first q other
    omega
  | building | appending => rw [at_] at announced; nomatch announced

theorem Ordered.appended (ordered : Ordered s) (listed : p ∈ s.publications)
    (appending : p.stage = .appending e) (first : ∀ q ∈ s.publications, p.seq ≤ q.seq) :
    Ordered { s with
      store := s.store.append e
      history := s.history ++ [e]
      publications := s.setStage p.seq (.broadcasting e) } := by
  have pending : announces p.stage = false := by rw [appending]; rfl
  have own := ordered.own p listed e (.inl appending)
  have behind : ∀ f ∈ s.history, f.seq < e.seq := by
    intro f before
    rw [own]
    exact ordered.ahead p listed pending f before
  have quiet := ordered.quiet listed pending first
  have sorted : InOrder (s.history ++ [e]) := inOrder_append.mpr ⟨ordered.sorted, behind⟩
  constructor
  · exact sorted
  · obtain ⟨kept, retains, suffix⟩ := ordered.kept
    have grown := retains.append fun f stored =>
      Nat.ne_of_lt (behind f (suffix.subset stored))
    have atEnd : kept.orderedInsert bySeq e = kept ++ [e] := by
      apply InOrder.ext _ (inOrder_orderedInsert retains.inOrder fun f stored =>
        Nat.ne_of_lt (behind f (suffix.subset stored)))
      · exact inOrder_append.mpr ⟨retains.inOrder, fun f stored => behind f (suffix.subset stored)⟩
      · exact (List.perm_orderedInsert bySeq e kept).trans (List.perm_append_singleton e kept).symm
    rw [atEnd] at grown
    obtain ⟨before, cut⟩ := suffix
    refine ⟨_, grown, (List.drop_suffix _ _).trans ⟨before, ?_⟩⟩
    rw [← cut, List.append_assoc]
  · rw [append_latestSeq, latestSeq_append, latestSeq_inOrder ordered.sorted]
    cases final : s.history.getLast? with
    | none => simp
    | some f =>
      have := behind f (List.mem_of_getLast? final)
      simp only [Option.map_some, Option.getD_some]
      omega
  · intro counter started
    obtain ⟨history, running⟩ := ordered.counted counter started
    constructor
    · intro f appended
      rcases List.mem_append.mp appended with before | new
      · exact history f before
      · rw [List.mem_singleton.mp new, own]
        exact running p listed
    · intro q set
      rcases mem_setStage set with ⟨before, -⟩ | ⟨other, before, -, rfl⟩
      · exact running q before
      · exact running other before
  · intro unstarted
    rw [ordered.unstarted unstarted] at listed
    nomatch listed
  · exact (setStage_seq _).symm ▸ ordered.distinct
  · intro q set still f appended
    rcases mem_setStage set with ⟨before, other⟩ | ⟨_, _, _, rfl⟩
    · rcases List.mem_append.mp appended with early | new
      · exact ordered.ahead q before still f early
      · have := first q before
        rw [List.mem_singleton.mp new, own]
        omega
    · nomatch still
  · intro q set f at_
    rcases mem_setStage set with ⟨before, -⟩ | ⟨other, before, same, rfl⟩
    · exact ordered.own q before f at_
    · rcases at_ with ⟨⟨⟩⟩ | ⟨⟨⟩⟩
      exact own.trans same.symm
  · intro q set f at_
    rcases mem_setStage set with ⟨before, other⟩ | ⟨other, before, same, rfl⟩
    · exact absurd ⟨q, before, by rw [at_]; rfl⟩ quiet
    · cases at_
      simp

theorem Ordered.restarted (ordered : Ordered s) {subscriptions : List Subscription} :
    Ordered { s with seqCounter := none, waiting := [], publications := [],
                     subscriptions, subscribers := fun _ => none } where
  sorted := ordered.sorted
  kept := ordered.kept
  latest := ordered.latest
  counted _ started := nomatch started
  unstarted _ := rfl
  distinct := List.nodup_nil
  ahead _ listed := nomatch listed
  own _ listed := nomatch listed
  last _ listed := nomatch listed

theorem Ordered.reads (ordered : Ordered s) {cursor : Nat}
    (stored : ∀ e ∈ s.history, cursor < e.seq → e.seq ∈ s.store.index) (limit : Nat) :
    s.store.readFrom cursor limit = (above cursor s.history).take limit := by
  obtain ⟨kept, retains, before, cut⟩ := ordered.kept
  have none : above cursor before = [] := by
    apply List.filter_eq_nil_iff.mpr
    intro e early
    have inHistory : e ∈ s.history := cut ▸ List.mem_append_left kept early
    by_contra later
    have indexed := stored e inHistory (by simpa using later)
    rw [retains.index] at indexed
    obtain ⟨f, isKept, same⟩ := List.mem_map.mp indexed
    have sorted := ordered.sorted
    rw [← cut] at sorted
    exact absurd same (Nat.ne_of_gt ((List.pairwise_append.mp sorted).2.2 e early f isKept))
  rw [retains.readFrom, ← cut, above_append, none, List.nil_append, Int.toNat_natCast]
  congr 1
  apply List.filter_congr
  intro e _
  simp only [decide_eq_decide]
  omega

end Publisher

def Announced (s : Firehose) (events : Events) : Prop :=
  (¬Awaits s → events = s.history) ∧ (Awaits s → events = s.history.dropLast)

def Serves (s : Firehose) (i : Nat) (sub : Subscription) (cursor : Nat) : Prop :=
  match sub.replay with
  | .reading position =>
    cursor ≤ position ∧ sub.received = upTo position (above cursor s.history) ∧
      ∀ e ∈ s.history, position < e.seq → e.seq ∈ s.store.index
  | .sending position batch more =>
    cursor ≤ position ∧ sub.received = upTo position (above cursor s.history) ∧
      (∀ e ∈ s.history, position < e.seq → e.seq ∈ s.store.index) ∧
      batch <+: above position s.history ∧ (more = false → batch = above position s.history)
  | .finished =>
    above cursor sub.received <+: above cursor s.history ∧
      (s.registered i sub = true → ∀ events, Announced s events →
        above cursor sub.received = above cursor events)

structure InStep (s : Firehose) : Prop where
  ordered : Ordered s
  apart : ∀ sub ∈ s.subscriptions, sub.replay ≠ .finished → ¬Awaits s
  serves : ∀ i sub, s.subscriptions[i]? = some sub → ∀ cursor, sub.cursor = some cursor →
    Serves s i sub cursor

section Subscribers
variable {s t : Firehose} {i : Nat} {sub : Subscription} {cursor : Nat}

theorem upTo_above_prefix (sorted : InOrder s.history) (position : Nat) :
    upTo position (above cursor s.history) <+: above cursor s.history :=
  upTo_prefix (InOrder.above sorted) position

theorem above_upTo (position : Nat) (events : Events) :
    above cursor (upTo position (above cursor events)) = upTo position (above cursor events) := by
  apply List.filter_eq_self.mpr
  intro e listed
  exact (List.mem_filter.mp (List.mem_filter.mp listed).1).2

theorem Serves.isPrefix (serves : Serves s i sub cursor) (sorted : InOrder s.history) :
    above cursor sub.received <+: above cursor s.history := by
  unfold Serves at serves
  split at serves
  next =>
    rw [serves.2.1, above_upTo]
    exact upTo_above_prefix sorted _
  next =>
    rw [serves.2.1, above_upTo]
    exact upTo_above_prefix sorted _
  next => exact serves.1

theorem received_all (sorted : InOrder s.history) {position : Nat} (le : cursor ≤ position)
    (received : sub.received = upTo position (above cursor s.history))
    (nothing : above position s.history = []) : sub.received = above cursor s.history := by
  have cut := upTo_above (InOrder.above (c := cursor) sorted) position
  rw [above_above le, nothing, List.append_nil] at cut
  rw [received, cut]

theorem Serves.frame (serves : Serves s i sub cursor) (history : t.history = s.history)
    (index : t.store.index = s.store.index)
    (registered : t.registered i sub = true → s.registered i sub = true)
    (awaits : Awaits t ↔ Awaits s) : Serves t i sub cursor := by
  unfold Serves Announced at serves ⊢
  split at serves
  next => rwa [history, index]
  next => rwa [history, index]
  next =>
    rw [history, awaits]
    exact ⟨serves.1, fun live => serves.2 (registered live)⟩

theorem InStep.frame (inStep : InStep s) (ordered : Ordered t)
    (subscriptions : t.subscriptions = s.subscriptions) (subscribers : t.subscribers = s.subscribers)
    (history : t.history = s.history) (index : t.store.index = s.store.index)
    (awaits : Awaits t ↔ Awaits s) : InStep t where
  ordered := ordered
  apart sub listed running := by
    rw [awaits]
    exact inStep.apart sub (subscriptions ▸ listed) running
  serves i sub at_ cursor asked := by
    apply (inStep.serves i sub (subscriptions ▸ at_) cursor asked).frame history index _ awaits
    simp only [Firehose.registered, subscribers]
    exact id

theorem inStep_initial (maxEvents : Nat) : InStep (initial maxEvents) where
  ordered := ordered_initial maxEvents
  apart _ listed := nomatch listed
  serves _ _ at_ := nomatch at_

theorem awaits_begin {counter : Nat} {serialised : Option String} {stage : Nat → Stage}
    (silent : announces (stage (nextSeq counter)) = false) :
    Awaits (s.begin counter serialised stage) ↔ Awaits s := by
  simp only [Awaits, Firehose.begin, List.mem_append, List.mem_singleton]
  constructor
  · rintro ⟨p, before | new, announced⟩
    · exact ⟨p, before, announced⟩
    · rw [new] at announced
      cases silent.symm.trans announced
  · rintro ⟨p, before, announced⟩
    exact ⟨p, .inl before, announced⟩

theorem awaits_setStage {p : Publication} {stage : Stage} (ordered : Ordered s)
    (listed : p ∈ s.publications) (pending : announces p.stage = false)
    (silent : announces stage = false) :
    Awaits { s with publications := s.setStage p.seq stage } ↔ Awaits s := by
  constructor
  · rintro ⟨q, set, announced⟩
    rcases mem_setStage set with ⟨before, -⟩ | ⟨_, _, _, rfl⟩
    · exact ⟨q, before, announced⟩
    · exact absurd (silent.symm.trans announced) nofun
  · rintro ⟨q, before, announced⟩
    have other : q.seq ≠ p.seq := by
      intro same
      rw [ordered.unique before listed same, pending] at announced
      nomatch announced
    exact ⟨q, List.mem_map.mpr ⟨q, before, if_neg other⟩, announced⟩

theorem awaits_finish {p : Publication} (ordered : Ordered s) (listed : p ∈ s.publications)
    (pending : announces p.stage = false) :
    Awaits { s with publications := s.finish p.seq } ↔ Awaits s := by
  constructor
  · rintro ⟨q, still, announced⟩
    exact ⟨q, (List.mem_filter.mp still).1, announced⟩
  · rintro ⟨q, before, announced⟩
    have other : q.seq ≠ p.seq := by
      intro same
      rw [ordered.unique before listed same, pending] at announced
      nomatch announced
    exact ⟨q, List.mem_filter.mpr ⟨before, by simpa using other⟩, announced⟩

theorem InStep.appended (inStep : InStep s) {p : Publication} {e : FirehoseEventEnvelope}
    (listed : p ∈ s.publications) (appending : p.stage = .appending e)
    (first : ∀ q ∈ s.publications, p.seq ≤ q.seq)
    (idle : ∀ sub ∈ s.subscriptions, sub.replay = .finished) :
    InStep { s with
      store := s.store.append e
      history := s.history ++ [e]
      publications := s.setStage p.seq (.broadcasting e) } where
  ordered := inStep.ordered.appended listed appending first
  apart sub subscribed running := absurd (idle sub subscribed) running
  serves i sub at_ cursor asked := by
    have pending : announces p.stage = false := by rw [appending]; rfl
    have quiet := inStep.ordered.quiet listed pending first
    have before := inStep.serves i sub at_ cursor asked
    have finished := idle sub (List.mem_of_getElem? at_)
    unfold Serves at before ⊢
    rw [finished] at before ⊢
    constructor
    · rw [above_append]
      exact before.1.trans (List.prefix_append _ _)
    · intro live events announced
      have waits : Awaits { s with
          store := s.store.append e
          history := s.history ++ [e]
          publications := s.setStage p.seq (.broadcasting e) } :=
        ⟨_, List.mem_map.mpr ⟨p, listed, if_pos rfl⟩, rfl⟩
      rw [announced.2 waits]
      simp only [List.dropLast_concat]
      exact before.2 live s.history ⟨fun _ => rfl, fun waiting => absurd waiting quiet⟩

theorem InStep.broadcast (inStep : InStep s) {p : Publication} {e : FirehoseEventEnvelope}
    (listed : p ∈ s.publications) (broadcasting : p.stage = .broadcasting e) :
    InStep { s with subscriptions := s.sendAll e, publications := s.finish p.seq } where
  ordered :=
    { (inStep.ordered.finish : Ordered { s with publications := s.finish p.seq }) with }
  apart sub subscribed running := by
    obtain ⟨i, at_⟩ := List.getElem?_of_mem subscribed
    simp only [Firehose.sendAll, List.getElem?_mapIdx, Option.map_eq_some_iff] at at_
    obtain ⟨was, before, rfl⟩ := at_
    have waits : Awaits s := ⟨p, listed, by rw [broadcasting]; rfl⟩
    apply absurd waits (inStep.apart was (List.mem_of_getElem? before) _)
    split at running <;> exact running
  serves i sub at_ cursor asked := by
    simp only [Firehose.sendAll, List.getElem?_mapIdx, Option.map_eq_some_iff] at at_
    obtain ⟨was, before, rfl⟩ := at_
    have waits : Awaits s := ⟨p, listed, by rw [broadcasting]; rfl⟩
    have finished : was.replay = .finished := by
      by_contra running
      exact inStep.apart was (List.mem_of_getElem? before) running waits
    have final := inStep.ordered.last p listed e broadcasting
    obtain ⟨front, history⟩ := List.getLast?_eq_some_iff.mp final
    have quiet : ¬Awaits { s with subscriptions := s.sendAll e, publications := s.finish p.seq } := by
      rintro ⟨q, still, announced⟩
      obtain ⟨before, other⟩ := List.mem_filter.mp still
      cases at_ : q.stage with
      | broadcasting f =>
        have same := inStep.ordered.last q before f at_
        have first := inStep.ordered.own p listed e (.inr broadcasting)
        have second := inStep.ordered.own q before f (.inr at_)
        rw [final, Option.some.injEq] at same
        simp only [ne_eq, decide_eq_true_eq] at other
        exact other (by rw [← second, ← first, same])
      | building | appending => rw [at_] at announced; nomatch announced
    have asking : was.cursor = some cursor := by split at asked <;> exact asked
    have served := inStep.serves i was before cursor asking
    unfold Serves at served
    rw [finished] at served
    by_cases live : s.registered i was = true
    · have sent := served.2 live front
        ⟨fun idle => absurd waits idle, fun _ => by rw [history, List.dropLast_concat]⟩
      have received : above cursor (was.received ++ [e]) = above cursor s.history := by
        rw [above_append, sent, history, above_append]
      unfold Serves
      simp only [if_pos live, receive, finished]
      refine ⟨received ▸ List.prefix_refl _, fun _ events announced => ?_⟩
      rw [announced.1 quiet, received]
    · unfold Serves
      simp only [if_neg live, finished]
      exact ⟨served.1, fun again => absurd again live⟩

theorem InStep.setSubscription (inStep : InStep s) {was : Subscription}
    (at_ : s.subscriptions[i]? = some was) (running : was.replay ≠ .finished)
    (serves : ∀ cursor, sub.cursor = some cursor →
      Serves { s with subscriptions := s.subscriptions.set i sub } i sub cursor) :
    InStep { s with subscriptions := s.subscriptions.set i sub } where
  ordered := { inStep.ordered with }
  apart other listed busy := by
    rcases List.mem_or_eq_of_mem_set listed with before | same
    · exact inStep.apart other before busy
    · exact inStep.apart was (List.mem_of_getElem? at_) running
  serves j other found cursor asked := by
    by_cases same : i = j
    · subst same
      rw [List.getElem?_set_self (List.getElem?_eq_some_iff.mp at_).1] at found
      cases found
      exact serves cursor asked
    · rw [List.getElem?_set_ne same] at found
      exact (inStep.serves j other found cursor asked).frame rfl rfl id Iff.rfl

theorem InStep.batchRead (inStep : InStep s) {position : Nat}
    (at_ : s.subscriptions[i]? = some sub) (reading : sub.replay = .reading position) :
    let batch := s.store.readFrom position REPLAY_BATCH_SIZE
    let replay := if batch.length = 0 then .finished
      else Replay.sending position batch (¬batch.length < REPLAY_BATCH_SIZE)
    InStep { s with subscriptions := s.subscriptions.set i (setReplay sub replay) } := by
  intro batch replay
  have quiet := inStep.apart sub (List.mem_of_getElem? at_) (by rw [reading]; nofun)
  apply inStep.setSubscription at_ (by rw [reading]; nofun)
  intro cursor asked
  have served := inStep.serves i sub at_ cursor asked
  unfold Serves at served
  rw [reading] at served
  obtain ⟨le, received, stored⟩ := served
  have read : batch = (above position s.history).take REPLAY_BATCH_SIZE :=
    inStep.ordered.reads stored REPLAY_BATCH_SIZE
  by_cases empty : batch.length = 0
  · have nothing : above position s.history = [] := by
      rw [read, List.length_take] at empty
      have positive : 0 < REPLAY_BATCH_SIZE := by decide
      exact List.eq_nil_of_length_eq_zero (by omega)
    have all := received_all inStep.ordered.sorted le received nothing
    have complete : above cursor sub.received = above cursor s.history := by
      rw [all, above_above (Nat.le_refl cursor)]
    unfold Serves
    simp only [replay, if_pos empty, setReplay]
    refine ⟨complete ▸ List.prefix_refl _, fun _ events announced => ?_⟩
    rw [announced.1 quiet, complete]
  · unfold Serves
    simp only [replay, if_neg empty, setReplay]
    refine ⟨le, received, stored, read ▸ List.take_prefix _ _, fun short => ?_⟩
    rw [read, List.length_take] at short
    rw [read]
    apply List.take_of_length_le
    simp only [Nat.not_lt, decide_eq_false_iff_not, Nat.not_le] at short
    omega

theorem InStep.replayed (inStep : InStep s) {position : Nat} {e : FirehoseEventEnvelope}
    {batch : Events} {more : Bool} (at_ : s.subscriptions[i]? = some sub)
    (sending : sub.replay = .sending position (e :: batch) more) :
    InStep { s with
      subscriptions :=
        s.subscriptions.set i (setReplay (receive sub e) (afterSent e.seq more batch)) } := by
  have quiet := inStep.apart sub (List.mem_of_getElem? at_) (by rw [sending]; nofun)
  apply inStep.setSubscription at_ (by rw [sending]; nofun)
  intro cursor asked
  have served := inStep.serves i sub at_ cursor asked
  unfold Serves at served
  rw [sending] at served
  obtain ⟨le, received, stored, ⟨rest, next⟩, short⟩ := served
  have sorted := inStep.ordered.sorted
  have ahead : above position (above cursor s.history) = e :: (batch ++ rest) := by
    rw [above_above le, ← next, List.cons_append]
  obtain ⟨sent, left, later⟩ := above_cons (InOrder.above sorted) ahead
  have le' : cursor ≤ e.seq := by omega
  have grown : sub.received ++ [e] = upTo e.seq (above cursor s.history) := by
    rw [received, sent]
  have remaining : above e.seq s.history = batch ++ rest := by rw [← left, above_above le']
  have stored' : ∀ f ∈ s.history, e.seq < f.seq → f.seq ∈ s.store.index :=
    fun f listed after => stored f listed (by omega)
  have last : more = false → rest = [] := by
    intro few
    have all := short few
    rw [← next] at all
    simpa using all
  cases batch with
  | cons f batch =>
    unfold Serves
    simp only [setReplay, receive, afterSent]
    refine ⟨le', grown, stored', remaining ▸ List.prefix_append _ _, fun few => ?_⟩
    rw [remaining, last few, List.append_nil]
  | nil =>
    cases more with
    | true =>
      unfold Serves
      simp only [setReplay, receive, afterSent, if_true]
      exact ⟨le', grown, stored'⟩
    | false =>
      have nothing : above e.seq s.history = [] := by rw [remaining, last rfl, List.nil_append]
      have all : sub.received ++ [e] = above cursor s.history :=
        (received_all sorted le' grown nothing : (receive sub e).received = _)
      have complete : above cursor (sub.received ++ [e]) = above cursor s.history := by
        rw [all, above_above (Nat.le_refl cursor)]
      unfold Serves
      simp only [setReplay, receive, afterSent, Bool.false_eq_true, if_false]
      refine ⟨complete ▸ List.prefix_refl _, fun _ events announced => ?_⟩
      rw [announced.1 quiet, complete]

theorem Serves.stopped (serves : Serves s i sub cursor) (sorted : InOrder s.history)
    (history : t.history = s.history) (gone : t.registered i sub = false) :
    Serves t i (setReplay sub .finished) cursor := by
  refine ⟨history ▸ serves.isPrefix sorted, fun live => ?_⟩
  exact absurd (gone.symm.trans live) nofun

theorem InStep.restarted (inStep : InStep s) :
    InStep { s with
      seqCounter := none, waiting := [], publications := []
      subscriptions := s.subscriptions.map fun sub => setReplay sub .finished
      subscribers := fun _ => none } where
  ordered := inStep.ordered.restarted
  apart _ _ _ := by
    rintro ⟨_, ⟨⟩, _⟩
  serves i sub at_ cursor asked := by
    simp only [List.getElem?_map, Option.map_eq_some_iff] at at_
    obtain ⟨was, before, rfl⟩ := at_
    exact (inStep.serves i was before cursor asked).stopped inStep.ordered.sorted rfl rfl

theorem InStep.detached (inStep : InStep s) (id : String) :
    InStep { s with
      subscribers := fun other => if other = id then none else s.subscribers other } where
  ordered := { inStep.ordered with }
  apart := inStep.apart
  serves i sub at_ cursor asked := by
    refine (inStep.serves i sub at_ cursor asked).frame rfl rfl ?_ Iff.rfl
    intro live
    simp only [Firehose.registered, decide_eq_true_eq] at live ⊢
    split at live
    next => nomatch live
    next => exact live

theorem InStep.attached (inStep : InStep s) {new : Subscription}
    (apart : new.replay ≠ .finished → ¬Awaits s)
    (serves : ∀ {t : Firehose}, t.history = s.history → t.store = s.store →
      ∀ cursor, new.cursor = some cursor → Serves t s.subscriptions.length new cursor) :
    InStep { s with
      subscriptions := s.subscriptions ++ [new]
      subscribers := fun other =>
        if other = new.id then some s.subscriptions.length else s.subscribers other } where
  ordered := { inStep.ordered with }
  apart sub listed running := by
    rcases List.mem_append.mp listed with before | same
    · exact inStep.apart sub before running
    · rw [List.mem_singleton.mp same] at running
      exact apart running
  serves i sub at_ cursor asked := by
    rcases Nat.lt_or_ge i s.subscriptions.length with old | last
    · rw [List.getElem?_append_left old] at at_
      refine (inStep.serves i sub at_ cursor asked).frame rfl rfl ?_ Iff.rfl
      intro live
      simp only [Firehose.registered, decide_eq_true_eq] at live ⊢
      split at live
      next =>
        cases live
        exact absurd old (Nat.lt_irrefl _)
      next => exact live
    · rw [List.getElem?_append_right last, List.getElem?_singleton] at at_
      split at at_
      next first =>
        cases at_
        have same : i = s.subscriptions.length := by omega
        rw [same]
        refine serves ?_ ?_ cursor asked
        · rfl
        · rfl
      next => nomatch at_

end Subscribers

variable {encode : FirehoseEvent → Bytes} {s t : Firehose} {label : Label}

theorem step_inStep (inStep : InStep s) (inTurn : InTurn s label)
    (next : step encode s label = some t) : InStep t := by
  have ordered := inStep.ordered
  cases label with
  | seqCounterInitialised =>
    simp only [step] at next
    split at next
    next => nomatch next
    next unstarted =>
      cases next
      exact inStep.frame (ordered.initialised unstarted) rfl rfl rfl rfl Iff.rfl
  | publishCommit evt =>
    simp only [step, Option.bind_eq_bind, Option.bind_eq_some_iff] at next
    obtain ⟨counter, started, next⟩ := next
    cases next
    exact inStep.frame { ordered with } rfl rfl rfl rfl Iff.rfl
  | commitStarted did time =>
    simp only [step, Option.bind_eq_bind, Option.bind_eq_some_iff] at next
    obtain ⟨counter, started, evt, waiting, next⟩ := next
    split at next
    next => nomatch next
    next =>
      cases next
      have dequeued : InStep { s with waiting := s.waiting.erase evt } :=
        inStep.frame { ordered with } rfl rfl rfl rfl Iff.rfl
      exact dequeued.frame (dequeued.ordered.begin started rfl nofun) rfl rfl rfl rfl
        (awaits_begin rfl)
  | diffBuilt seq diff =>
    simp only [step, Option.bind_eq_bind, Option.bind_eq_some_iff] at next
    obtain ⟨p, found, next⟩ := next
    obtain ⟨listed, rfl⟩ := mem_publication found
    split at next
    next evt time building =>
      cases next
      have pending : announces p.stage = false := by rw [building]; rfl
      exact inStep.frame (ordered.built listed pending rfl) rfl rfl rfl rfl
        (awaits_setStage ordered listed pending rfl)
    next => nomatch next
  | diffFailed seq =>
    simp only [step, Option.bind_eq_bind, Option.bind_eq_some_iff] at next
    obtain ⟨p, found, next⟩ := next
    obtain ⟨listed, rfl⟩ := mem_publication found
    split at next
    next evt time building =>
      cases next
      have pending : announces p.stage = false := by rw [building]; rfl
      exact inStep.frame ordered.finish rfl rfl rfl rfl (awaits_finish ordered listed pending)
    next => nomatch next
  | publishIdentity evt time =>
    simp only [step, Option.bind_eq_bind, Option.bind_eq_some_iff] at next
    obtain ⟨counter, started, next⟩ := next
    cases next
    exact inStep.frame (ordered.begin started rfl (by rintro e ⟨rfl⟩; rfl)) rfl rfl rfl rfl
      (awaits_begin rfl)
  | publishAccount evt time =>
    simp only [step, Option.bind_eq_bind, Option.bind_eq_some_iff] at next
    obtain ⟨counter, started, next⟩ := next
    cases next
    exact inStep.frame (ordered.begin started rfl (by rintro e ⟨rfl⟩; rfl)) rfl rfl rfl rfl
      (awaits_begin rfl)
  | appended seq =>
    simp only [step, Option.bind_eq_bind, Option.bind_eq_some_iff] at next
    obtain ⟨p, found, next⟩ := next
    obtain ⟨listed, rfl⟩ := mem_publication found
    split at next
    next envelope appending =>
      cases next
      exact inStep.appended listed appending inTurn.1 inTurn.2
    next => nomatch next
  | broadcast seq =>
    simp only [step, Option.bind_eq_bind, Option.bind_eq_some_iff] at next
    obtain ⟨p, found, next⟩ := next
    obtain ⟨listed, rfl⟩ := mem_publication found
    split at next
    next envelope broadcasting =>
      cases next
      exact inStep.broadcast listed broadcasting
    next => nomatch next
  | attach id cursor =>
    simp only [step] at next
    split at next
    next => nomatch next
    next =>
      match cursor with
      | none =>
        cases next
        exact inStep.attached (absurd rfl) fun _ _ _ asked => nomatch asked
      | some (.negSucc _) =>
        cases next
        exact inStep
      | some (.ofNat cursor) =>
        cases next
        apply inStep.attached
        · rintro - ⟨p, listed, announced⟩
          exact absurd ((inTurn.1 p listed).symm.trans announced) nofun
        · rintro t history store _ ⟨rfl⟩
          unfold Serves
          dsimp only
          rw [history, store]
          refine ⟨Nat.le_refl cursor, ?_, inTurn.2⟩
          symm
          apply List.filter_eq_nil_iff.mpr
          intro e listed
          have := (List.mem_filter.mp listed).2
          simp only [decide_eq_true_eq] at this ⊢
          omega
  | batchRead i =>
    simp only [step, Option.bind_eq_bind, Option.bind_eq_some_iff] at next
    obtain ⟨sub, at_, next⟩ := next
    split at next
    next position reading =>
      cases next
      exact inStep.batchRead at_ reading
    next => nomatch next
  | replayed i =>
    simp only [step, Option.bind_eq_bind, Option.bind_eq_some_iff] at next
    obtain ⟨sub, at_, next⟩ := next
    split at next
    next position event batch more sending =>
      cases next
      exact inStep.replayed at_ sending
    next => nomatch next
  | detach id =>
    cases next
    exact inStep.detached id
  | restart =>
    cases next
    exact inStep.restarted

theorem InStep.gapFree (inStep : InStep s) : GapFree s := by
  have sorted := inStep.ordered.sorted
  have whole : ∀ cursor, stream s.history cursor = above cursor s.history := by
    intro cursor
    rw [stream, insertionSort_inOrder sorted]
  have isPrefix : ∀ sub ∈ s.subscriptions, ∀ cursor, sub.cursor = some cursor →
      above cursor sub.received <+: above cursor s.history := by
    intro sub listed cursor asked
    obtain ⟨i, at_⟩ := List.getElem?_of_mem listed
    exact (inStep.serves i sub at_ cursor asked).isPrefix sorted
  constructor
  · intro sub listed cursor asked
    rw [whole]
    exact isPrefix sub listed cursor asked
  · intro i sub at_ live finished quiet cursor asked
    have served := inStep.serves i sub at_ cursor asked
    unfold Serves at served
    rw [finished] at served
    rw [whole]
    exact served.2 live s.history ⟨fun _ => rfl, fun waits => absurd waits quiet⟩
  · intro sub listed cursor last asked final after
    have part := isPrefix sub listed cursor asked
    have ending : (above cursor sub.received).getLast? = some last := by
      obtain ⟨front, received⟩ := List.getLast?_eq_some_iff.mp final
      rw [received, above_append]
      have kept : above cursor [last] = [last] := List.filter_eq_self.mpr (by simpa using after)
      rw [kept, List.getLast?_concat]
    rw [whole, whole, ← above_above (c := cursor) (Nat.le_of_lt after)]
    exact prefix_above (InOrder.above sorted) part ending

/-- In every run whose publications complete in the order of their numbers and apart from
replays, every subscriber sees the events after its cursor once, in order and without a
gap, also across attachments. -/
theorem streams_gap_free (encode : FirehoseEvent → Bytes) (maxEvents : Nat) (s : Firehose)
    (run : Reaches (ofFunction (step encode)) InTurn (initial maxEvents) s) : GapFree s :=
  (run.invariant (fun _ _ _ inStep inTurn next => step_inStep inStep inTurn next)
    (inStep_initial maxEvents)).gapFree

def noBytes : FirehoseEvent → Bytes := fun _ => []

def morning : String := "2026-01-01T08:00:00.000Z"

/-- A commit and an identity event, announced in turn to a subscriber that leaves after the
first and attaches again. -/
def inTurnRun : List Label :=
  [.seqCounterInitialised, .attach "relay" (some 0), .batchRead 0,
    .publishCommit ⟨"did:plc:alice", "3k2a"⟩, .commitStarted "did:plc:alice" morning,
    .publishIdentity ⟨"did:plc:bob", none⟩ morning, .diffBuilt 1 ⟨"bafy", none, [], []⟩,
    .appended 1, .broadcast 1, .detach "relay", .appended 2, .broadcast 2,
    .attach "relay" (some 1), .batchRead 1, .replayed 1]

theorem streams_gap_free_inTurn : ∃ s, GapFree s ∧ s.subscriptions.map (·.received.map (·.seq)) =
    [[1], [2]] := by
  have ran : (runGuarded (step noBytes) InTurn (initial 100) inTurnRun).map
      (fun s => s.subscriptions.map (·.received.map (·.seq))) = some [[1], [2]] := by
    decide +kernel
  obtain ⟨s, run, received⟩ := Option.map_eq_some_iff.mp ran
  exact ⟨s, streams_gap_free noBytes 100 s (reaches_of_runGuarded inTurnRun _ _ run), received⟩

def overtakenRun : List Label :=
  [.seqCounterInitialised, .attach "relay" (some 0), .batchRead 0,
    .publishCommit ⟨"did:plc:alice", "3k2a"⟩, .commitStarted "did:plc:alice" morning,
    .publishIdentity ⟨"did:plc:bob", none⟩ morning, .appended 2, .broadcast 2,
    .diffBuilt 1 ⟨"bafy", none, [], []⟩, .appended 1, .broadcast 1]

def doubledRun : List Label :=
  [.seqCounterInitialised, .publishIdentity ⟨"did:plc:bob", none⟩ morning, .appended 1,
    .attach "relay" (some 0), .batchRead 0, .replayed 0, .broadcast 1]

theorem streams_not_gap_free :
    (∃ s, Reachable noBytes 100 s ∧ ¬GapFree s ∧
      s.subscriptions.map (·.received.map (·.seq)) = [[2, 1]]) ∧
    ∃ s, Reachable noBytes 100 s ∧ ¬GapFree s ∧
      s.subscriptions.map (·.received.map (·.seq)) = [[1, 1]] := by
  have differs : ∀ labels received, (runLabels (step noBytes) (initial 100) labels).map (fun s =>
      (s.subscriptions.map (·.received.map (·.seq)), s.subscriptions.map (·.cursor),
        decide (∀ sub ∈ s.subscriptions, above 0 sub.received <+: stream s.history 0))) =
        some ([received], [some 0], false) →
      ∃ s, Reachable noBytes 100 s ∧ ¬GapFree s ∧
        s.subscriptions.map (·.received.map (·.seq)) = [received] := by
    intro labels received ran
    obtain ⟨s, run, seen⟩ := Option.map_eq_some_iff.mp ran
    simp only [Prod.mk.injEq, decide_eq_false_iff_not] at seen
    refine ⟨s, reaches_of_runLabels labels _ _ run, fun gapFree => seen.2.2 ?_, seen.1⟩
    intro sub listed
    have asked : sub.cursor ∈ s.subscriptions.map (·.cursor) := List.mem_map_of_mem listed
    rw [seen.2.1, List.mem_singleton] at asked
    exact gapFree.inOrder sub listed 0 asked
  exact ⟨differs overtakenRun _ (by decide +kernel), differs doubledRun _ (by decide +kernel)⟩

end MastopodFederation.Guarantees.SubscriberStream
