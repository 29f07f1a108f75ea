import MastopodFederation.Source.FirehoseCursor

/-!
# The resume cursor and frames that are not published yet

AtFirehoseConsumer.ts says it advances the hot cursor "ONLY after the RedPanda ack". An
acknowledgement moves the cursor to its own frame whatever happened to the frames before it, so
the cursor is safe exactly as long as acknowledgements come in the order of the frames.
-/
namespace MastopodFederation.Guarantees.FirehoseResume
open Lib.GuardedRun Source.FirehoseCursor

/-- Acknowledgements in frame order: when a publish succeeds, every frame
received so far with a smaller sequence number is published already. -/
def PublishedInOrder (c : Connection) : Event → Prop
  | .publishAcked seq => ∀ r ∈ c.received, r < seq → r ∈ c.published
  | _ => True

instance (c : Connection) (e : Event) : Decidable (PublishedInOrder c e) := by
  cases e <;> unfold PublishedInOrder <;> infer_instance

def PublishedUpTo (log : Nat → Bool) (c : Connection) (bound : Nat) : Prop :=
  ∀ r, log r = true → r ≤ bound → r ∈ c.published

def OfferedUpTo (log : Nat → Bool) (c : Connection) (bound : Nat) : Prop :=
  ∀ r, log r = true → r ≤ bound → r ∈ c.received ∨ r ∈ c.published

/-- Sequence numbers the consumer holds as acknowledged, wherever they stand on
their way to a persisted cursor. -/
def Acknowledged (c : Connection) (seq : Nat) : Prop :=
  c.store.hot = some seq ∨ c.store.committed = some seq ∨ c.lastAckedSeq = some seq ∨
    .acknowledged seq ∈ c.handlers ∨ .hotCursorSet seq ∈ c.handlers ∨ seq ∈ c.commits

structure InOrder (log : Nat → Bool) (c : Connection) : Prop where
  acknowledged : ∀ seq, Acknowledged c seq → PublishedUpTo log c seq
  position : ∀ seq, c.position = some (some seq) → OfferedUpTo log c seq
  received : ∀ seq ∈ c.received, OfferedUpTo log c seq
  publishing : ∀ seq, .publishing seq ∈ c.handlers → seq ∈ c.received
  offered : ∀ seq ∈ c.received, log seq = true

variable {log : Nat → Bool} {c d : Connection}

theorem initial_inOrder : InOrder log initial where
  acknowledged seq h := by simp [Acknowledged, initial] at h
  position seq h := by simp [initial] at h
  received seq h := by simp [initial] at h
  publishing seq h := by simp [initial] at h
  offered seq h := by simp [initial] at h

theorem resume_acknowledged {cursor : Nat} (h : getResumeCursor c.store = some cursor) :
    Acknowledged c cursor := by
  unfold getResumeCursor at h
  split at h
  next committed =>
    cases h
    exact .inr (.inl committed)
  next => exact .inl h

theorem isNext_offered {position : Option Nat} {seq : Nat} (next : isNext log position seq = true)
    (before : ∀ p, position = some p → OfferedUpTo log c p) {r : Nat} (offered : log r = true)
    (below : r < seq) : r ∈ c.received ∨ r ∈ c.published := by
  simp only [isNext, Bool.and_eq_true, List.all_eq_true, List.mem_range, Bool.or_eq_true,
    Bool.not_eq_true'] at next
  rcases next.2 r below with absent | passed
  · simp [offered] at absent
  · cases position with
    | none => simp at passed
    | some p =>
      simp only [Option.all_some, decide_eq_false_iff_not, Nat.not_lt] at passed
      exact before p rfl r offered passed

/-- A step that publishes nothing and receives nothing keeps the invariant when
it neither acknowledges anything nor moves the position past what was offered. -/
theorem InOrder.frame (h : InOrder log c) (received : d.received = c.received)
    (published : d.published = c.published) (acks : ∀ seq, Acknowledged d seq → Acknowledged c seq)
    (position : ∀ seq, d.position = some (some seq) → OfferedUpTo log c seq)
    (publishing : ∀ seq, .publishing seq ∈ d.handlers → .publishing seq ∈ c.handlers) :
    InOrder log d where
  acknowledged seq ack := by
    simpa only [PublishedUpTo, published] using h.acknowledged seq (acks seq ack)
  position seq at_ := by
    simpa only [OfferedUpTo, received, published] using position seq at_
  received seq mem := by
    simpa only [OfferedUpTo, received, published] using h.received seq (received ▸ mem)
  publishing seq mem := received ▸ h.publishing seq (publishing seq mem)
  offered seq mem := h.offered seq (received ▸ mem)

theorem InOrder.deliver (h : InOrder log c) {position : Option Nat} {seq : Nat}
    (opened : c.position = some position) (next : isNext log position seq = true) :
    InOrder log { c with
      position := some (some seq)
      handlers := .publishing seq :: c.handlers
      received := seq :: c.received } := by
  have gapless : ∀ r, log r = true → r ≤ seq → r ∈ seq :: c.received ∨ r ∈ c.published := by
    intro r offered bound
    by_cases same : r = seq
    · exact .inl (by simp [same])
    · have old := isNext_offered next (fun p at_ => h.position p (opened.trans (by rw [at_])))
        offered (by omega)
      exact old.imp (List.mem_cons_of_mem _) id
  refine ⟨?_, ?_, ?_, ?_, ?_⟩
  · intro a ack
    exact h.acknowledged a (by simpa [Acknowledged] using ack)
  · rintro _ ⟨rfl⟩
    exact gapless
  · intro s mem r offered bound
    rcases List.mem_cons.mp mem with rfl | old
    · exact gapless r offered bound
    · exact (h.received s old r offered bound).imp (List.mem_cons_of_mem _) id
  · intro s mem
    simp only [List.mem_cons, Handler.publishing.injEq] at mem ⊢
    exact mem.imp id (h.publishing s)
  · intro s mem
    rcases List.mem_cons.mp mem with rfl | old
    · simp only [isNext, Bool.and_eq_true] at next
      exact next.1.1
    · exact h.offered s old

theorem InOrder.publishAcked (h : InOrder log c) {seq : Nat} (running : .publishing seq ∈ c.handlers)
    (inOrder : ∀ r ∈ c.received, r < seq → r ∈ c.published) :
    InOrder log { c with
      handlers := .acknowledged seq :: c.handlers.erase (.publishing seq)
      published := seq :: c.published } := by
  have upTo : ∀ r, log r = true → r ≤ seq → r ∈ seq :: c.published := by
    intro r offered bound
    by_cases same : r = seq
    · simp [same]
    · have arrived := h.received seq (h.publishing seq running) r offered bound
      exact List.mem_cons_of_mem _ (arrived.elim (fun mem => inOrder r mem (by omega)) id)
  refine ⟨?_, ?_, ?_, ?_, h.offered⟩
  · intro a ack r offered bound
    by_cases same : a = seq
    · exact upTo r offered (same ▸ bound)
    · have old : Acknowledged c a := by
        simp only [Acknowledged, List.mem_cons, Handler.acknowledged.injEq, same, false_or,
          reduceCtorEq] at ack ⊢
        exact ack.imp id (.imp id (.imp id (.imp List.mem_of_mem_erase
          (.imp List.mem_of_mem_erase id))))
      exact List.mem_cons_of_mem _ (h.acknowledged a old r offered bound)
  · intro s at_ r offered bound
    exact (h.position s at_ r offered bound).imp id (List.mem_cons_of_mem _)
  · intro s mem r offered bound
    exact (h.received s mem r offered bound).imp id (List.mem_cons_of_mem _)
  · intro s mem
    simp only [List.mem_cons, reduceCtorEq, false_or] at mem
    exact h.publishing s (List.mem_of_mem_erase mem)

theorem step_inOrder (h : InOrder log c) {e : Event} (inOrder : PublishedInOrder c e)
    (next : step log c e = some d) : InOrder log d := by
  cases e with
  | connect =>
    simp only [step] at next
    split at next
    · cases next
      refine h.frame rfl rfl (fun _ ack => ack) (fun seq at_ r offered bound => ?_) (fun _ mem => mem)
      -- the socket opens at the resume cursor, which is acknowledged
      exact .inr (h.acknowledged seq (resume_acknowledged (by simpa using at_)) r offered bound)
    · cases next
  | deliver seq =>
    simp only [step] at next
    split at next
    · cases next
    next position opened =>
      split at next
      next isNext =>
        cases next
        exact h.deliver opened isNext
      · cases next
  | publishAcked seq =>
    simp only [step] at next
    split at next
    next running =>
      cases next
      exact h.publishAcked running inOrder
    · cases next
  | publishFailed seq =>
    simp only [step] at next
    split at next
    · cases next
      refine h.frame rfl rfl (fun s ack => ?_) (by simp) (fun s mem => List.mem_of_mem_erase mem)
      exact ack.imp id (.imp id (.imp id (.imp List.mem_of_mem_erase
        (.imp List.mem_of_mem_erase id))))
    · cases next
  | hotCursorSettled seq ok =>
    simp only [step] at next
    split at next
    next running =>
      cases next
      refine h.frame rfl rfl (fun s ack => ?_) h.position (fun s mem => ?_)
      rotate_left
      · exact List.mem_of_mem_erase (List.mem_of_ne_of_mem (by simp) mem)
      have source : Acknowledged c seq := .inr (.inr (.inr (.inl running)))
      rcases ack with hot | committed | last | mem | mem | mem
      · cases ok
        · exact .inl hot
        · simp only [if_true, setHotCursor, Option.some.injEq] at hot
          exact hot ▸ source
      · exact .inr (.inl (by cases ok <;> simpa [setHotCursor] using committed))
      · exact .inr (.inr (.inl last))
      · exact .inr (.inr (.inr (.inl (List.mem_of_mem_erase (by simpa using mem)))))
      · simp only [List.mem_cons, Handler.hotCursorSet.injEq] at mem
        rcases mem with rfl | mem
        · exact source
        · exact .inr (.inr (.inr (.inr (.inl (List.mem_of_mem_erase mem)))))
      · exact .inr (.inr (.inr (.inr (.inr mem))))
    · cases next
  | lastAckedAssigned seq =>
    simp only [step] at next
    split at next
    next running =>
      cases next
      refine h.frame rfl rfl (fun s ack => ?_) h.position (fun s mem => List.mem_of_mem_erase mem)
      rcases ack with hot | committed | last | mem | mem | mem
      · exact .inl hot
      · exact .inr (.inl committed)
      · cases last
        exact .inr (.inr (.inr (.inr (.inl running))))
      · exact .inr (.inr (.inr (.inl (List.mem_of_mem_erase mem))))
      · exact .inr (.inr (.inr (.inr (.inl (List.mem_of_mem_erase mem)))))
      · exact .inr (.inr (.inr (.inr (.inr mem))))
    · cases next
  | commitStarted =>
    simp only [step] at next
    split at next
    · cases next
    next seq last =>
      cases next
      refine h.frame rfl rfl (fun s ack => ?_) h.position (fun s mem => mem)
      rcases ack with hot | committed | last' | mem | mem | mem
      · exact .inl hot
      · exact .inr (.inl committed)
      · exact .inr (.inr (.inl last'))
      · exact .inr (.inr (.inr (.inl mem)))
      · exact .inr (.inr (.inr (.inr (.inl mem))))
      · rcases List.mem_cons.mp mem with rfl | mem
        · exact .inr (.inr (.inl last))
        · exact .inr (.inr (.inr (.inr (.inr mem))))
  | commitSettled seq ok =>
    simp only [step] at next
    split at next
    next running =>
      cases next
      refine h.frame rfl rfl (fun s ack => ?_) h.position (fun s mem => mem)
      rcases ack with hot | committed | last | mem | mem | mem
      · exact .inl (by cases ok <;> simpa [commitCursor] using hot)
      · cases ok
        · exact .inr (.inl committed)
        · simp only [if_true, commitCursor, Option.some.injEq] at committed
          exact .inr (.inr (.inr (.inr (.inr (committed ▸ running)))))
      · exact .inr (.inr (.inl last))
      · exact .inr (.inr (.inr (.inl mem)))
      · exact .inr (.inr (.inr (.inr (.inl mem))))
      · exact .inr (.inr (.inr (.inr (.inr (List.mem_of_mem_erase mem)))))
    · cases next
  | socketClosed =>
    cases next
    exact h.frame rfl rfl (fun _ ack => ack) (by simp) (fun _ mem => mem)
  | restart =>
    cases next
    refine h.frame rfl rfl (fun s ack => ?_) (by simp) (by simp)
    rcases ack with hot | committed | last | mem | mem | mem
    · exact .inl hot
    · exact .inr (.inl committed)
    · cases last
    all_goals simp at mem

theorem InOrder.resumes (h : InOrder log c) : ResumesBelowUnpublished log c := by
  intro cursor resumed
  have upTo := h.acknowledged cursor (resume_acknowledged resumed)
  have below : ∀ seq, log seq = true → seq ∉ c.published → cursor < seq := by
    intro seq offered missing
    exact Nat.lt_of_not_le fun reached => missing (upTo seq offered reached)
  exact ⟨fun seq mem => below seq (h.offered seq mem), below⟩

/-- In every run whose acknowledgements come in frame order, no resume cursor
reaches a frame that is not published: nothing the upstream offers is skipped. -/
theorem resume_below_unpublished (log : Nat → Bool) (c : Connection)
    (run : Reaches (ofFunction (step log)) PublishedInOrder initial c) :
    ResumesBelowUnpublished log c :=
  (run.invariant (fun _ _ _ h inOrder next => step_inOrder h inOrder next) initial_inOrder).resumes

def fromOne (seq : Nat) : Bool := 0 < seq

/-- Frames 1 and 2 in order, the second publish failing: the consumer reconnects
from 1 and is offered 2 again. -/
def orderedRun : List Event :=
  [.connect, .deliver 1, .deliver 2, .publishAcked 1, .hotCursorSettled 1 true,
    .publishFailed 2, .connect, .deliver 2]

theorem resume_below_unpublished_ordered :
    ResumesBelowUnpublished fromOne
      ⟨⟨some 1, none⟩, none, some (some 2), [.publishing 2, .hotCursorSet 1], [], [2, 2, 1], [1]⟩ :=
  resume_below_unpublished fromOne _
    (reaches_of_runGuarded orderedRun _ _ (by decide))

def overtakenRun : List Event :=
  [.connect, .deliver 1, .deliver 2, .publishAcked 2, .hotCursorSettled 2 true, .publishFailed 1]

/-- Without the order, a run ends with a resume cursor past an unpublished frame:
the next connection starts at 2 and frame 1 is never offered again. -/
theorem resume_skips_unpublished :
    ¬ ∀ (log : Nat → Bool) (c : Connection), Reachable log c → ResumesBelowUnpublished log c := by
  intro always
  have reached : Reachable fromOne
      ⟨⟨some 2, none⟩, none, none, [.hotCursorSet 2], [], [2, 1], [2]⟩ :=
    reaches_of_runLabels overtakenRun _ _ (by decide)
  have below := (always fromOne _ reached 2 rfl).1 1 (by decide) (by decide)
  exact absurd below (by decide)

end MastopodFederation.Guarantees.FirehoseResume
