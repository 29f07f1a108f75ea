import MastopodFederation.Guarantees.ReplayProgress

/-!
# From replayed to live events

A connection that replays buffers what is published live and scans the store meanwhile. What the
scan finds and what is buffered are together exactly what was stored, as long as the scan finds
no event that is published after the connection was registered and no cap cuts it short.
-/
namespace MastopodFederation.Guarantees.ReplayHandover
open Lib.Calls Lib.GuardedRun Lib.WorkerPool Lib.PoolRuns Lib.Ascending
open Source.Fep3ab2Topics Source.Fep3ab2ReplayStore ReplayRecords ReplayRequests ReplayProgress

/-- A connection has buffered what was published since it was registered or, once it is resumed,
has received all that was published after the header's sequence. -/
structure Linked (config : Config) (n : Nat) (topics : List String) (s : Server) (c : Connection) :
    Prop where
  own : c.topics = topics
  baseline : c.baseline ≤ s.published
  scannable : (early n c.baseline s).length ≤ config.maxScanEvents
  replayable : (subscribed topics (early n c.baseline s)).length ≤ config.maxReplayEvents
  paused : c.paused = true →
    sequences c.received = [] ∧ sequences c.bufferedEvents = live topics c.baseline s
  resumed : c.paused = false →
    c.bufferedEvents = [] ∧ (sequences c.received).filter (n < ·) = live topics n s

section Offer
variable {config : Config} {n : Nat} {topics : List String} {s t : Server} {c : Connection}
  {event : FepDispatchEvent} {sequence : Option Nat}

theorem sequences_append (first second : List Delivery) :
    sequences (first ++ second) = sequences first ++ sequences second := List.filterMap_append

theorem sequences_single (delivery : Delivery) : sequences [delivery] = delivery.sequence.toList := by
  unfold sequences
  cases same : delivery.sequence <;> simp [same]

inductive Offered (c : Connection) (sequence : Option Nat) : Link → Prop where
  | overflow : Offered c sequence .closed
  | buffered (delivery : Delivery) (own : delivery.sequence = sequence) (paused : c.paused = true) :
      Offered c sequence (.registered { c with bufferedEvents := c.bufferedEvents ++ [delivery] })
  | received (delivery : Delivery) (own : delivery.sequence = sequence) (resumed : c.paused = false) :
      Offered c sequence (.registered { c with received := c.received ++ [delivery] })

theorem offer_offered (recipient : isRecipient c.principal c.topics event = true) :
    Offered c sequence (c.offer event sequence) := by
  unfold Connection.offer
  rw [recipient]
  rw [if_neg (by decide)]
  dsimp only
  split
  next paused =>
    split
    · exact .overflow
    · exact .buffered _ rfl paused
  next resumed => exact .received _ rfl (Bool.not_eq_true _ ▸ resumed)

theorem offer_skipped (other : isRecipient c.principal c.topics event = false) :
    c.offer event sequence = .registered c := by
  unfold Connection.offer
  rw [other]
  rfl

theorem isRecipient_of_anyone (anyone : event.principal.all (· = "") = true) :
    isRecipient c.principal c.topics event = isSubscribed c.topics event.topic := by
  unfold isRecipient isSubscribed
  have none : event.principal.filter (· ≠ "") = none := by
    cases principal : event.principal with
    | none => rfl
    | some name =>
      rw [principal] at anyone
      have empty : name = "" := of_decide_eq_true anyone
      rw [empty]
      rfl
  rw [none]
  rfl

theorem Linked.extends (linked : Linked config n topics s c) (extends_ : Extends s t)
    (same : ∀ n, live topics n t = live topics n s) : Linked config n topics t c where
  own := linked.own
  baseline := linked.baseline.trans extends_.1
  scannable := by
    rw [extends_.early linked.baseline]
    exact linked.scannable
  replayable := by
    rw [extends_.early linked.baseline]
    exact linked.replayable
  paused paused := by
    rw [same]
    exact linked.paused paused
  resumed resumed := by
    rw [same]
    exact linked.resumed resumed

def Follows (config : Config) (n : Nat) (topics : List String) (t : Server) (c : Connection)
    (link : Link) : Prop :=
  link = .closed ∨ ∃ d, link = .registered d ∧ Linked config n topics t d ∧ d.paused = c.paused ∧
    d.baseline = c.baseline

theorem Linked.offered {link : Link} (linked : Linked config n topics s c) (extends_ : Extends s t)
    (adds : ∀ low, live topics low t = live topics low s ++ sequence.toList.filter (low < ·))
    (fresh : ∀ q ∈ sequence.toList, s.published < q) (offered : Offered c sequence link) :
    Follows config n topics t c link := by
  have scannable : (early n c.baseline t).length ≤ config.maxScanEvents := by
    rw [extends_.early linked.baseline]
    exact linked.scannable
  have replayable : (subscribed topics (early n c.baseline t)).length ≤ config.maxReplayEvents := by
    rw [extends_.early linked.baseline]
    exact linked.replayable
  cases offered with
  | overflow => exact .inl rfl
  | buffered delivery own paused =>
    refine .inr ⟨_, rfl, ⟨linked.own, linked.baseline.trans extends_.1, scannable, replayable, ?_, ?_⟩,
      rfl, rfl⟩
    · obtain ⟨none, buffered⟩ := linked.paused paused
      have all : sequence.toList.filter (c.baseline < ·) = sequence.toList := by
        apply List.filter_eq_self.mpr
        intro q listed
        have later := fresh q listed
        have before := linked.baseline
        exact decide_eq_true (by omega)
      refine fun _ => ⟨none, ?_⟩
      rw [adds, all, sequences_append, sequences_single, buffered, own]
    · intro resumed
      rw [paused] at resumed
      nomatch resumed
  | received delivery own resumed =>
    refine .inr ⟨_, rfl, ⟨linked.own, linked.baseline.trans extends_.1, scannable, replayable, ?_, ?_⟩,
      rfl, rfl⟩
    · intro paused
      rw [resumed] at paused
      nomatch paused
    · obtain ⟨none, received⟩ := linked.resumed resumed
      refine fun _ => ⟨none, ?_⟩
      rw [adds, sequences_append, sequences_single, List.filter_append, received, own]

theorem Linked.publishes (linked : Linked config n topics s c) (link : s.link = .registered c)
    (extends_ : Extends s t) (publishes : Publishes s t) : Follows config n topics t c t.link := by
  have hub : ∀ event sequence, (s.hubPublish event sequence).link = c.offer event sequence := by
    intro event sequence
    unfold Server.hubPublish
    rw [link]
  cases publishes with
  | silent same live => exact .inr ⟨c, same.trans link, linked.extends extends_ (live topics), rfl, rfl⟩
  | unstored event offered live =>
    rw [offered, hub]
    cases recipient : isRecipient c.principal c.topics event with
    | false => exact .inr ⟨c, offer_skipped recipient, linked.extends extends_ (live topics), rfl, rfl⟩
    | true =>
      refine linked.offered extends_ (fun low => ?_) (fun _ none => absurd none List.not_mem_nil)
        (offer_offered recipient)
      exact (live topics low).trans (List.append_nil _).symm
  | stored event sequence offered anyone fresh adds =>
    rw [offered, hub]
    have subscribes : isRecipient c.principal c.topics event = isSubscribed topics event.topic := by
      rw [isRecipient_of_anyone anyone, linked.own]
    cases recipient : isRecipient c.principal c.topics event with
    | false =>
      refine .inr ⟨c, offer_skipped recipient, ?_, rfl, rfl⟩
      rw [subscribes] at recipient
      have same : ∀ low, live topics low t = live topics low s := by
        intro low
        rw [adds, recipient, Bool.false_and, if_neg Bool.false_ne_true, List.append_nil]
      exact linked.extends extends_ same
    | true =>
      refine linked.offered extends_ (fun low => ?_) ?_ (offer_offered recipient)
      · rw [adds, ← subscribes, recipient, Bool.true_and, Option.toList_some, List.filter_singleton,
          Bool.cond_eq_ite]
      · intro q listed
        rw [List.mem_singleton.mp listed]
        exact fresh

theorem Linked.resume {events : List StoredReplayEvent} (orderly : Orderly s)
    (linked : Linked config n topics s c) (paused : c.paused = true)
    (replayed : events.map (·.sequence) = (subscribed topics (early n c.baseline s)).map (·.sequence)) :
    Linked config n topics { s with link := .registered (c.resume events) } (c.resume events) where
  own := linked.own
  baseline := linked.baseline
  scannable := linked.scannable
  replayable := linked.replayable
  paused none := nomatch none
  resumed _ := by
    refine ⟨rfl, ?_⟩
    obtain ⟨none, buffered⟩ := linked.paused paused
    have sent : sequences (events.map replayDelivery) = events.map (·.sequence) := by
      unfold sequences
      rw [List.filterMap_map, ← List.filterMap_eq_map]
      rfl
    change (sequences (c.received ++ events.map replayDelivery ++ c.bufferedEvents)).filter _ =
      live topics n s
    rw [sequences_append, sequences_append, none, sent, replayed, buffered, List.nil_append,
      List.filter_append]
    have cut := filter_cut (orderly.ascending.filter fun record => isSubscribed topics record.topic)
      (fun record => decide (n < record.sequence) && decide (record.sequence ≤ s.published)) c.baseline
    have old : ((subscribed topics (early n c.baseline s)).map (·.sequence)).filter (n < ·) =
        ((subscribed topics s.stored).filter fun record => decide (record.sequence ≤ c.baseline) &&
          (decide (n < record.sequence) && decide (record.sequence ≤ s.published))).map (·.sequence) := by
      have before := linked.baseline
      unfold early storedAfter subscribed
      rw [List.filter_map, List.filter_filter, List.filter_filter, List.filter_filter,
        List.filter_filter]
      congr 1
      apply List.filter_congr
      intro record _
      by_cases low : record.sequence ≤ c.baseline
      · have published : record.sequence ≤ s.published := low.trans before
        simp [low, published, Bool.and_comm]
      · simp [low]
    have new : (live topics c.baseline s).filter (n < ·) =
        ((subscribed topics s.stored).filter fun record => decide (c.baseline < record.sequence) &&
          (decide (n < record.sequence) && decide (record.sequence ≤ s.published))).map (·.sequence) := by
      unfold live
      rw [List.filter_map, List.filter_filter]
      congr 1
      apply List.filter_congr
      intro record _
      exact Bool.and_left_comm ..
    rw [old, new, ← List.map_append]
    exact congrArg (List.map (·.sequence)) cut

end Offer

def LinkRight (config : Config) (n : Nat) (topics : List String) (s : Server)
    (duties : Nat → Option (Unit × Phase)) : Link → Prop
  | .absent => ∀ i u t, duties i = some (u, t) → t = .outside
  | .closed => True
  | .registered c => Linked config n topics s c ∧
      (c.paused = true → ∃ i u t, duties i = some (u, t) ∧
        Progress config n topics s c.baseline t ∧
        ∀ j, j ≠ i → ∀ u t, duties j = some (u, t) → t = .outside) ∧
      (c.paused = false → ∀ i u t, duties i = some (u, t) → t = .outside ∨ t = .done)

structure Hands (config : Config) (n : Nat) (topics : List String) (s : Server)
    (duties : Nat → Option (Unit × Phase)) : Prop where
  orderly : Orderly s
  sane : ∀ i u t, duties i = some (u, t) → Sane n s t
  link : LinkRight config n topics s duties s.link

section Hands
variable {config : Config} {n : Nat} {topics : List String} {s t : Server}
  {duties : Nat → Option (Unit × Phase)} {i : Nat} {phase next : Phase}

theorem Hands.extends (hands : Hands config n topics s duties) (orderly : Orderly t)
    (extends_ : Extends s t) (publishes : Publishes s t) : Hands config n topics t duties := by
  refine ⟨orderly, fun i u phase duty => (hands.sane i u phase duty).extends extends_, ?_⟩
  have right := hands.link
  cases link : s.link with
  | absent =>
    have same : t.link = .absent := by
      have hub : ∀ event sequence, (s.hubPublish event sequence).link = .absent := by
        intro event sequence
        unfold Server.hubPublish
        rw [link]
        exact link
      cases publishes with
      | silent same _ => exact same.trans link
      | unstored event offered _ => exact offered.trans (hub _ _)
      | stored event sequence offered _ _ _ => exact offered.trans (hub _ _)
    rw [link] at right
    rw [same]
    exact right
  | closed =>
    have same : t.link = .closed := by
      have hub : ∀ event sequence, (s.hubPublish event sequence).link = .closed := by
        intro event sequence
        unfold Server.hubPublish
        rw [link]
        exact link
      cases publishes with
      | silent same _ => exact same.trans link
      | unstored event offered _ => exact offered.trans (hub _ _)
      | stored event sequence offered _ _ _ => exact offered.trans (hub _ _)
    rw [same]
    trivial
  | registered c =>
    rw [link] at right
    obtain ⟨linked, paused, resumed⟩ := right
    rcases linked.publishes link extends_ publishes with closed | ⟨d, same, later, still, baseline⟩
    · rw [closed]
      trivial
    · rw [same]
      refine ⟨later, ?_, ?_⟩
      · rw [still, baseline]
        intro waiting
        obtain ⟨i, u, phase, duty, progress, others⟩ := paused waiting
        exact ⟨i, u, phase, duty, progress.extends extends_ linked.baseline, others⟩
      · rw [still]
        exact resumed

theorem Hands.move (hands : Hands config n topics s duties) (duty : duties i = some ((), phase))
    (inside : phase ≠ .outside) (finished : phase ≠ .done) (sane : Sane n s next)
    (moves : ∀ c, s.link = .registered c → Progress config n topics s c.baseline phase →
      Progress config n topics s c.baseline next) :
    Hands config n topics s (setDuty duties i (some ((), next))) := by
  refine ⟨hands.orderly, ?_, ?_⟩
  · intro j u t held
    rcases setDuty_some held with ⟨-, here⟩ | ⟨-, before⟩
    · cases here
      exact sane
    · exact hands.sane j u t before
  · have right := hands.link
    cases link : s.link with
    | absent =>
      rw [link] at right
      exact absurd (right i () phase duty) inside
    | closed => trivial
    | registered c =>
      rw [link] at right
      obtain ⟨linked, paused, resumed⟩ := right
      refine ⟨linked, fun waiting => ?_, fun open_ => ?_⟩
      · obtain ⟨k, u, t, held, progress, others⟩ := paused waiting
        have same : i = k := by
          by_contra apart
          exact inside (others i apart () phase duty)
        subst same
        rw [duty] at held
        cases held
        refine ⟨i, (), next, by rw [setDuty, if_pos rfl], moves c link progress, ?_⟩
        intro j apart u t held
        rw [setDuty, if_neg apart] at held
        exact others j apart u t held
      · rcases resumed open_ i () phase duty with outside | done
        · exact absurd outside inside
        · exact absurd done finished

theorem Hands.register (hands : Hands config n topics s duties) {principal : String}
    (absent : s.link = .absent)
    (scannable : (early n s.published s).length ≤ config.maxScanEvents)
    (replayable : (subscribed topics (early n s.published s)).length ≤ config.maxReplayEvents) :
    Hands config n topics
      { s with link := .registered ⟨principal, topics, true, [], [], s.published⟩ }
      (setDuty duties i (some ((), .reading 0 [] []))) := by
  have right := hands.link
  rw [absent] at right
  refine ⟨⟨hands.orderly.ascending, hands.orderly.readable, hands.orderly.pending,
    hands.orderly.safe, hands.orderly.staged⟩, ?_, ⟨rfl, Nat.le_refl _, scannable, replayable, ?_, ?_⟩,
    ?_, ?_⟩
  · intro j u t held
    rcases setDuty_some held with ⟨-, here⟩ | ⟨-, before⟩
    · cases here
      exact fun _ none => by cases none
    · exact hands.sane j u t before
  · refine fun _ => ⟨rfl, ?_⟩
    symm
    apply List.map_eq_nil_iff.mpr
    apply List.filter_eq_nil_iff.mpr
    intro record _ both
    obtain ⟨above, below⟩ := Bool.and_eq_true_iff.mp both
    exact absurd (of_decide_eq_true below) (Nat.not_le.mpr (of_decide_eq_true above))
  · exact fun none => by cases none
  · refine fun _ => ⟨i, (), .reading 0 [] [], by rw [setDuty, if_pos rfl], ?_, ?_⟩
    · exact ⟨Nat.zero_le _, fun _ none => (by cases none), 0, Nat.le_refl _, rfl, .inl rfl⟩
    · intro j apart u t held
      rw [setDuty, if_neg apart] at held
      exact right j u t held
  · exact fun none => by cases none

theorem Hands.resume (hands : Hands config n topics s duties) {c : Connection}
    {events : List StoredReplayEvent} (link : s.link = .registered c)
    (duty : duties i = some ((), phase)) (allowed : phase.allows config n topics (.sendReplayed events)) :
    Hands config n topics { s with link := .registered (c.resume events) }
      (setDuty duties i (some ((), .done))) := by
  have inside : phase ≠ .outside := by
    rintro rfl
    exact allowed
  have finished : phase ≠ .done := by
    rintro rfl
    exact allowed
  have right := hands.link
  rw [link] at right
  obtain ⟨linked, paused, resumed⟩ := right
  have waiting : c.paused = true := by
    by_contra open_
    rcases resumed (Bool.not_eq_true _ ▸ open_) i () phase duty with outside | done
    · exact inside outside
    · exact finished done
  obtain ⟨k, u, t, held, progress, others⟩ := paused waiting
  have same : i = k := by
    by_contra apart
    exact inside (others i apart () phase duty)
  subst same
  rw [duty] at held
  cases held
  have replayed := progress.sends hands.orderly linked.scannable linked.replayable allowed
  refine ⟨⟨hands.orderly.ascending, hands.orderly.readable, hands.orderly.pending,
    hands.orderly.safe, hands.orderly.staged⟩, ?_, linked.resume hands.orderly waiting replayed,
    fun none => (nomatch none), fun _ j u t held => ?_⟩
  · intro j u t held
    rcases setDuty_some held with ⟨-, here⟩ | ⟨-, before⟩
    · cases here
      trivial
    · exact hands.sane j u t before
  · rcases setDuty_some held with ⟨-, here⟩ | ⟨apart, before⟩
    · cases here
      exact .inr rfl
    · exact .inl (others j apart u t before)

theorem Hands.drop (hands : Hands config n topics s duties)
    (finished : ∀ u t, duties i = some (u, t) → t = .done) :
    Hands config n topics s (setDuty duties i none) := by
  refine ⟨hands.orderly, fun j u t held => hands.sane j u t (of_setDuty_none held), ?_⟩
  have right := hands.link
  cases link : s.link with
  | absent =>
    rw [link] at right
    exact fun j u t held => right j u t (of_setDuty_none held)
  | closed => trivial
  | registered c =>
    rw [link] at right
    obtain ⟨linked, paused, resumed⟩ := right
    refine ⟨linked, fun waiting => ?_,
      fun open_ j u t held => resumed open_ j u t (of_setDuty_none held)⟩
    obtain ⟨k, u, t, held, progress, others⟩ := paused waiting
    refine ⟨k, u, t, ?_, progress, fun j apart u t held => others j apart u t (of_setDuty_none held)⟩
    rw [setDuty, if_neg]
    · exact held
    · rintro rfl
      rw [finished u t held] at progress
      exact progress

theorem Hands.start (hands : Hands config n topics s duties) (free : duties i = none) :
    Hands config n topics s (setDuty duties i (some ((), .outside))) := by
  have kept : ∀ j u t, setDuty duties i (some ((), .outside)) j = some (u, t) →
      t = .outside ∨ duties j = some (u, t) := by
    intro j u t held
    rcases setDuty_some held with ⟨-, here⟩ | ⟨-, before⟩
    · cases here
      exact .inl rfl
    · exact .inr before
  refine ⟨hands.orderly, ?_, ?_⟩
  · intro j u t held
    rcases kept j u t held with rfl | before
    · trivial
    · exact hands.sane j u t before
  have right := hands.link
  cases link : s.link with
  | absent =>
    rw [link] at right
    exact fun j u t held => (kept j u t held).elim id (right j u t)
  | closed => trivial
  | registered c =>
    rw [link] at right
    obtain ⟨linked, paused, resumed⟩ := right
    refine ⟨linked, fun waiting => ?_, fun open_ j u t held => ?_⟩
    · obtain ⟨k, u, t, held, progress, others⟩ := paused waiting
      refine ⟨k, u, t, ?_, progress, fun j apart u t held =>
        (kept j u t held).elim id (others j apart u t)⟩
      rw [setDuty, if_neg]
      · exact held
      · rintro rfl
        rw [free] at held
        cases held
    · exact (kept j u t held).elim .inl (resumed open_ j u t)

theorem Hands.batch {scanned offset count low : Nat} {left results : List Nat}
    (hands : Hands config n topics s duties) (bounded : config.Bounded)
    (duty : duties i = some ((), .reading scanned left results))
    (allowed : (Phase.reading scanned left results).allows config n topics
      (.zrangebyscore low offset count))
    (early : ∀ c, s.link = .registered c →
      ∀ record ∈ subscribed topics (((storedAfter n s).drop offset).take count),
        record.sequence ≤ c.baseline) :
    Hands config n topics s (setDuty duties i (some ((), (Phase.reading scanned left results).after
      config n topics (.zrangebyscore low offset count)
      ((((s.stored.filter (low < ·.sequence)).drop offset).take count).map (·.sequence))))) := by
  cases left with
  | cons next left => nomatch allowed
  | nil =>
    obtain ⟨rfl, rfl, goesOn, size⟩ := allowed
    obtain ⟨stored, fresh⟩ := Sane.batch hands.orderly low offset count
    change Hands config low topics s (setDuty duties i (some ((),
      let members := (((storedAfter low s).drop offset).take count).map (·.sequence)
      if members.isEmpty then .ended results
      else if members.any (isStale low) then .broken
      else .reading (offset + members.length) members results)))
    dsimp only
    rw [fresh]
    rw [if_neg Bool.false_ne_true]
    apply hands.move duty Phase.noConfusion Phase.noConfusion
    · split
      · trivial
      · exact stored
    · intro c link progress
      have moved := progress.batch hands.orderly bounded goesOn size (early c link)
      dsimp only at moved
      split at moved
      next empty =>
        rw [if_pos empty]
        exact moved
      next some =>
        rw [if_neg some]
        exact moved

theorem Hands.read {scanned sequence : Nat} {left results : List Nat}
    (hands : Hands config n topics s duties)
    (duty : duties i = some ((), .reading scanned left results))
    (allowed : (Phase.reading scanned left results).allows config n topics (.getEvent sequence)) :
    Hands config n topics s (setDuty duties i (some ((), (Phase.reading scanned left results).after
      config n topics (.getEvent sequence) (s.stored.find? (·.sequence = sequence))))) := by
  cases left with
  | nil => nomatch allowed
  | cons next left =>
    cases (allowed : sequence = next)
    apply hands.move duty Phase.noConfusion Phase.noConfusion
    · exact (hands.sane i () _ duty).read hands.orderly
    · exact fun c _ progress => progress.read hands.orderly

end Hands

variable {config : Config} {topics : List String}

theorem hands_preserved {n : Nat} (bounded : config.Bounded)
    {reconnect : Reconnect} (header : parseReplayEventId reconnect.lastEventId = some n) :
    PreservesAt (replaySystem config reconnect) (HandsOver config n reconnect.topics)
      (replayMonitor config n reconnect.topics) Over (Hands config n reconnect.topics) where
  call pool duties i tag phase c next reply after admitted hands running duty allowed performed := by
    have performs : Server.perform c pool.shared = some (reply, after) := performed
    have sane := hands.sane i tag phase duty
    simp only [HandsOver, running] at admitted
    cases c with
    | registerConnection principal topics paused =>
      simp only [Server.perform] at performs
      split at performs
      next absent =>
        cases performs
        cases phase with
        | outside =>
          obtain ⟨rfl, rfl⟩ := allowed
          exact hands.register absent admitted.1 admitted.2
        | reading scanned left results => cases left <;> nomatch allowed
        | _ => nomatch allowed
      next => nomatch performs
    | zrangebyscore low offset count =>
      cases performs
      cases phase with
      | reading scanned left results =>
        refine hands.batch bounded duty allowed fun c link => ?_
        simp only [link] at admitted
        exact admitted
      | broken => exact sane.elim
      | _ => nomatch allowed
    | getEvent sequence =>
      cases performs
      cases phase with
      | reading scanned left results => exact hands.read duty allowed
      | broken => exact sane.elim
      | _ => nomatch allowed
    | delEvent | zrem =>
      cases phase with
      | broken => exact sane.elim
      | reading scanned left results => cases left <;> nomatch allowed
      | _ => nomatch allowed
    | sendReplayed events =>
      have inside : phase ≠ .outside := by
        rintro rfl
        exact allowed
      have finished : phase ≠ .done := by
        rintro rfl
        exact allowed
      have done : (replayMonitor config n reconnect.topics).after phase (.sendReplayed events) reply =
          .done := by
        cases phase with
        | outside => exact absurd rfl inside
        | _ => rfl
      rw [done]
      simp only [Server.perform] at performs
      split at performs
      next c link =>
        cases performs
        exact hands.resume link duty allowed
      next other =>
        cases performs
        exact hands.move duty inside finished trivial fun c link => absurd link (other c)
  stop pool duties i ended hands matched := hands.drop fun _ _ => ends_of_finished matched ended
  start pool duties i worker _ hands free starts := by
    refine ⟨.outside, ?_, hands.start free⟩
    rw [(starts : worker.program = _)]
    exact openStream_obeys header
  act pool duties event after admitted hands acted := by
    have reacted : pool.shared.react config event = some after := acted
    cases event with
    | publish event =>
      simp only [Server.react] at reacted
      split at reacted
      next named =>
        cases reacted
        obtain ⟨orderly, extends_, publishes⟩ := orderly_publish config hands.orderly named
        exact hands.extends orderly extends_ publishes
      next => nomatch reacted
    | dispatch =>
      obtain ⟨orderly, extends_, publishes⟩ := orderly_dispatch hands.orderly admitted reacted
      exact hands.extends orderly extends_ publishes
    | close =>
      cases reacted
      refine ⟨⟨hands.orderly.ascending, hands.orderly.readable, hands.orderly.pending,
        hands.orderly.safe, hands.orderly.staged⟩, hands.sane, trivial⟩

theorem hands_empty {n : Nat} : Hands config n topics Server.empty fun _ => none where
  orderly := ⟨ascending_nil, fun _ none => (nomatch none), fun _ none => (nomatch none), rfl,
    fun _ none => nomatch none⟩
  sane := fun _ _ _ none => nomatch none
  link := fun _ _ _ none => nomatch none

/-- In every run in which the scan finds no later event and no cap cuts it short, the connection
is resumed when the reconnect is handled, and from then on has received every persisted event
after the header's sequence that was published, once and in order. -/
theorem replay_hands_over (config : Config) (bounded : config.Bounded) (n : Nat) (positive : 0 < n)
    (safe : isSafeInteger n = true) (principal : String) (topics : List String) (pool : ReplayPool)
    (run : Reaches
      (Step (replaySystem config ⟨some (buildReplayEventId n), principal, topics⟩))
      (HandsOver config n topics) (Pool.idle Server.empty) pool) :
    ∀ connection, pool.shared.link = .registered connection →
      ((∀ i, finished (pool.workers i) = true) → connection.paused = false) ∧
      (connection.paused = true → sequences connection.received = []) ∧
      (connection.paused = false →
        (sequences connection.received).filter (n < ·) = live topics n pool.shared ∧
          (live topics n pool.shared).Pairwise (· < ·)) := by
  intro connection link
  have header : parseReplayEventId
      (Reconnect.lastEventId ⟨some (buildReplayEventId n), principal, topics⟩) = some n :=
    parse_build positive safe
  obtain ⟨duties, hands, matched⟩ :=
    watchedAt_run (hands_preserved bounded header) run (watchedTo_idle hands_empty)
  have right := hands.link
  rw [link] at right
  obtain ⟨linked, paused, -⟩ := right
  refine ⟨fun ended => ?_, fun waiting => (linked.paused waiting).1, fun open_ =>
    ⟨(linked.resumed open_).2, ?_⟩⟩
  · by_contra waiting
    obtain ⟨i, u, t, duty, progress, -⟩ := paused (Bool.not_eq_false _ ▸ waiting)
    have done_ : t = .done := ends_of_finished (matched i) (ended i) duty
    rw [done_] at progress
    exact progress
  · have ascending : Ascending (·.sequence) ((subscribed topics pool.shared.stored).filter
        fun record => n < record.sequence && record.sequence ≤ pool.shared.published) :=
      (hands.orderly.ascending.filter _).filter _
    exact List.pairwise_map.mpr ascending

def plain : Config := ⟨fun _ => 0, 500, 262144, 128, 5000, 2048⟩

theorem bounded_plain : plain.Bounded := ⟨by decide, by decide, by decide⟩

def following : List String := ["feeds/public/local"]

def note : FepDispatchEvent := ⟨"feeds/public/local", "activitypub", [], none, none⟩

def again : Reconnect := ⟨some (buildReplayEventId 1), "p", following⟩

def replays : Schedule Server Unit Event Call Reply Empty Unit where
  perform _ c s := s.perform c
  boot _ := openStream plain again.topics again.lastEventId again.principal
  admits _ _ := true
  react event s := s.react plain event

theorem replays_follows : replays.Follows (replaySystem plain again) where
  perform _ _ _ _ _ performed := performed
  admits _ _ _ := rfl
  react _ _ _ picked := picked

def delivered (s : Server) : Option (List Nat × Bool × List Nat) :=
  match s.link with
  | .registered connection =>
    some (sequences connection.received, connection.paused, live following 1 s)
  | _ => none

section Places
variable {config : Config} {n : Nat} {topics : List String} {pool : ReplayPool}
  {label : Label Unit Event Call Reply Empty Unit}

instance : Decidable (HandsOver config n topics pool label) := by
  unfold HandsOver
  split
  · split
    · infer_instance
    · split <;> infer_instance
    · infer_instance
  · infer_instance
  · infer_instance
  · infer_instance

end Places

def calls (i : Nat) (count : Nat) : List (Turn Unit Event) := List.replicate count (.call i)

def publishing : List (Turn Unit Event) :=
  [.act (.publish note), .act .dispatch, .act .dispatch, .act .dispatch]

def inOrder : List (Turn Unit Event) :=
  publishing ++ publishing ++ .start 0 () :: calls 0 4 ++ publishing ++ calls 0 1

theorem replay_hands_over_inOrder :
    ∃ pool, Reaches (Step (replaySystem plain again)) (HandsOver plain 1 following)
        (Pool.idle Server.empty) pool ∧
      delivered pool.shared = some ([2, 3], false, [2, 3]) ∧
      ∀ connection, pool.shared.link = .registered connection →
        ((∀ i, finished (pool.workers i) = true) → connection.paused = false) ∧
        (connection.paused = true → sequences connection.received = []) ∧
        (connection.paused = false →
          (sequences connection.received).filter (1 < ·) = live following 1 pool.shared ∧
            (live following 1 pool.shared).Pairwise (· < ·)) := by
  have looks : (follow replays (HandsOver plain 1 following) (Pool.idle Server.empty) inOrder).map
      (fun pool => delivered pool.shared) = some (some ([2, 3], false, [2, 3])) := by decide +kernel
  obtain ⟨pool, ran, ends⟩ := Option.map_eq_some_iff.mp looks
  have run := reaches_of_follow replays_follows ran
  exact ⟨pool, run, ends, replay_hands_over plain bounded_plain 1 (by decide) (by decide) "p"
    following pool run⟩

/-- The second event is stored, then the connection registers, then the event is published live
and the scan finds it. -/
def overlapping : List (Turn Unit Event) :=
  publishing ++ [.act (.publish note), .act .dispatch, .act .dispatch, .start 0 (), .call 0,
    .act .dispatch] ++ calls 0 4

theorem replayed_event_repeated :
    ¬ ∀ (config : Config), config.Bounded → ∀ n : Nat, 0 < n → isSafeInteger n = true →
      ∀ (principal : String) (topics : List String) (pool : ReplayPool),
      Reaches (Step (replaySystem config ⟨some (buildReplayEventId n), principal, topics⟩)) always
        (Pool.idle Server.empty) pool →
      ∀ connection, pool.shared.link = .registered connection →
        ((∀ i, finished (pool.workers i) = true) → connection.paused = false) ∧
        (connection.paused = true → sequences connection.received = []) ∧
        (connection.paused = false →
          (sequences connection.received).filter (n < ·) = live topics n pool.shared ∧
            (live topics n pool.shared).Pairwise (· < ·)) := by
  intro hands
  have looks : (follow replays always (Pool.idle Server.empty) overlapping).map
      (fun pool => delivered pool.shared) = some (some ([2, 2], false, [2])) := by decide +kernel
  obtain ⟨pool, ran, ends⟩ := Option.map_eq_some_iff.mp looks
  have run := reaches_of_follow replays_follows ran
  unfold delivered at ends
  split at ends
  next connection link =>
    obtain ⟨received, rest⟩ := Prod.mk.inj (Option.some.inj ends)
    obtain ⟨resumed, published⟩ := Prod.mk.inj rest
    have same := ((hands plain bounded_plain 1 (by decide) (by decide) "p" following pool run
      connection link).2.2 resumed).1
    rw [received, published] at same
    exact absurd same (by decide)
  next => cases ends

end MastopodFederation.Guarantees.ReplayHandover
