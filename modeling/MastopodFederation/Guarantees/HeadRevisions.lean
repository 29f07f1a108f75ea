import MastopodFederation.Source.RepoHead

/-!
# Revisions of a stored head under concurrent writers

`persistVerifiedHead` and `persistRepoState` read the head and overwrite it in a later MULTI that
checks nothing. When every MULTI still finds the head its writer read, and rebuilds bring a
revision that is not older together with its data root, the stored revision only grows.
-/
namespace MastopodFederation.Guarantees.HeadRevisions
open Lib.GuardedRun Source.Cbor Source.RepoState Source.RepoRegistry Source.RepoHead

structure History where
  dataRoot : String → String → String
  commitCid : String → String → String

section
variable {Tid : Type} [LinearOrder Tid] (fromStr : String → Option Tid)
  (base64url : Bytes → String) (history : History)

/-- A write of a commit of the history, the revision a TID: what
`parseCommitEventBody` and the signature leave through, and what a PDS serves. -/
def Legal (write : HeadWrite) : Prop :=
  (fromStr write.head.2).isSome = true ∧ write.head.1 =
    match write with
    | .verified parsed _ => history.dataRoot parsed.repo parsed.rev
    | .rebuilt did _ rev => history.commitCid did rev

def legalEvent (_ : HeadSystem) : HeadEvent → Prop
  | .start _ write => Legal fromStr history write
  | .advance _ _ => True

/-- A rebuild brings the data root of its revision, and no older revision than
the one it read. -/
def Suits (existing : Option RepositoryState) : HeadWrite → Prop
  | .verified _ _ => True
  | .rebuilt did rootCid rev => rootCid = history.dataRoot did rev ∧
      existing.all (fun state => atOrPast fromStr rev state.rev) = true

def FindsItsRead (r : Redis) : HeadWriter → Prop
  | .exec write existing _ _ => r.repo write.did = existing ∧ Suits fromStr history existing write
  | _ => True

def Undisturbed (s : HeadSystem) : HeadEvent → Prop
  | .start _ write => Legal fromStr history write
  | .advance i _ => FindsItsRead fromStr history s.redis (s.writers i)

instance (write : HeadWrite) : Decidable (Legal fromStr history write) :=
  inferInstanceAs (Decidable (_ ∧ _))

instance (s : HeadSystem) : ∀ e, Decidable (legalEvent fromStr history s e)
  | .start _ write => inferInstanceAs (Decidable (Legal fromStr history write))
  | .advance _ _ => .isTrue trivial

instance (existing : Option RepositoryState) : ∀ w, Decidable (Suits fromStr history existing w)
  | .verified _ _ => .isTrue trivial
  | .rebuilt _ _ _ => inferInstanceAs (Decidable (_ ∧ _))

instance (r : Redis) : ∀ w, Decidable (FindsItsRead fromStr history r w)
  | .exec _ _ _ _ => inferInstanceAs (Decidable (_ ∧ _))
  | .idle | .failed | .read _ _ | .check _ _ _ _ => .isTrue trivial

instance (s : HeadSystem) : ∀ e, Decidable (Undisturbed fromStr history s e)
  | .start _ write => inferInstanceAs (Decidable (Legal fromStr history write))
  | .advance i _ => inferInstanceAs
      (Decidable (FindsItsRead fromStr history s.redis (s.writers i)))

structure Rooted (did : String) (state : RepositoryState) : Prop where
  own : state.did = did
  tid : (fromStr state.rev).isSome = true
  root : state.rootCid = some (history.dataRoot did state.rev)

/-- What a writer has prepared: the head it will store, newer than the one a
verified write has read. -/
structure Prepared (write : HeadWrite) (existing : Option RepositoryState)
    (next : RepositoryState) : Prop where
  legal : Legal fromStr history write
  did : next.did = write.did
  head : next.head = (some write.head.1, write.head.2)
  newer : ∀ parsed commit, write = .verified parsed commit →
    ∀ state, existing = some state → atOrPast fromStr state.rev parsed.rev = false

def WriterReady : HeadWriter → Prop
  | .idle | .failed => True
  | .read write _ => Legal fromStr history write
  | .check write existing next _ => Prepared fromStr history write existing next
  | .exec write existing next _ => Prepared fromStr history write existing next

structure HeadInvariant (s : HeadSystem) : Prop where
  stored : ∀ did state, s.redis.repo did = some state → Rooted fromStr history did state
  ready : ∀ i, WriterReady fromStr history (s.writers i)

def RevisionsGrow (s t : HeadSystem) : Prop :=
  ∀ did state, s.redis.repo did = some state → ∃ state', t.redis.repo did = some state' ∧
    ∃ l r, fromStr state.rev = some l ∧ fromStr state'.rev = some r ∧ l ≤ r

variable {fromStr base64url history} {s : HeadSystem}

theorem RevisionsGrow.refl (h : HeadInvariant fromStr history s) : RevisionsGrow fromStr s s := by
  intro did state stored
  obtain ⟨tid, parsed⟩ := Option.isSome_iff_exists.mp (h.stored did state stored).tid
  exact ⟨state, stored, tid, tid, parsed, parsed, le_refl tid⟩

theorem RevisionsGrow.trans {t r : HeadSystem} (first : RevisionsGrow fromStr s t)
    (second : RevisionsGrow fromStr t r) : RevisionsGrow fromStr s r := by
  intro did state stored
  obtain ⟨middle, storedMiddle, l, m, la, ma, le⟩ := first did state stored
  obtain ⟨last, storedLast, m', n, ma', na, le'⟩ := second did middle storedMiddle
  cases ma.symm.trans ma'
  exact ⟨last, storedLast, l, n, la, na, le.trans le'⟩

variable {write : HeadWrite} {existing : Option RepositoryState} {now : String}
  {next : RepositoryState}

theorem next_prepared (legal : Legal fromStr history write)
    (own : ∀ state, existing = some state → state.did = write.did)
    (built : write.next fromStr base64url existing now = some next) :
    Prepared fromStr history write existing next := by
  cases write with
  | verified parsed commit =>
    simp only [HeadWrite.next, Option.ite_none_left_eq_some, Option.some.injEq] at built
    obtain ⟨behind, rfl⟩ := built
    refine ⟨legal, ?_, buildVerified_head .., ?_⟩
    · cases existing with
      | none => rfl
      | some state => exact own state rfl
    · rintro _ _ ⟨rfl, rfl⟩ state rfl
      simpa using behind
  | rebuilt did rootCid rev =>
    cases built
    refine ⟨legal, ?_, buildRebuilt_head .., nofun⟩
    cases existing with
    | none => rfl
    | some state => exact own state rfl

theorem Prepared.rooted (prepared : Prepared fromStr history write existing next)
    (suits : Suits fromStr history existing write) : Rooted fromStr history write.did next := by
  obtain ⟨root, rev⟩ := Prod.mk.inj prepared.head
  refine ⟨prepared.did, rev ▸ prepared.legal.1, ?_⟩
  rw [root, rev]
  cases write with
  | verified parsed commit => exact congrArg some prepared.legal.2
  | rebuilt did rootCid r => exact congrArg some suits.1

theorem Prepared.grows
    {state : RepositoryState} (prepared : Prepared fromStr history write existing next)
    (suits : Suits fromStr history existing write) (read : existing = some state)
    (rooted : Rooted fromStr history write.did state) :
    ∃ l r, fromStr state.rev = some l ∧ fromStr next.rev = some r ∧ l ≤ r := by
  obtain ⟨l, old⟩ := Option.isSome_iff_exists.mp rooted.tid
  obtain ⟨r, new⟩ := Option.isSome_iff_exists.mp prepared.legal.1
  have stays : next.rev = write.head.2 := congrArg Prod.snd prepared.head
  refine ⟨l, r, old, stays ▸ new, ?_⟩
  cases write with
  | verified parsed commit =>
    have newer := prepared.newer parsed commit rfl state read
    have new' : fromStr parsed.rev = some r := new
    rw [Bool.eq_false_iff, ne_eq, atOrPast_tid old new', not_le] at newer
    exact newer.le
  | rebuilt did rootCid rev =>
    subst read
    have new' : fromStr rev = some r := new
    exact (atOrPast_tid new' old).mp (by simpa [Suits] using suits.2)

theorem advance_exec_repo {r r' : Redis} {w' : HeadWriter} {previous : Option RepositoryState}
    (advanced : (HeadWriter.exec write existing next previous).advance fromStr base64url r now =
      some (r', w')) : w' = .idle ∧ r'.repo = Function.update r.repo next.did (some next) := by
  cases previous <;> cases advanced <;> exact ⟨rfl, rfl⟩

theorem advance_quiet {r r' : Redis} {w w' : HeadWriter}
    (quiet : ∀ write existing next previous, w ≠ .exec write existing next previous)
    (stored : ∀ did state, r.repo did = some state → Rooted fromStr history did state)
    (ready : WriterReady fromStr history w)
    (advanced : w.advance fromStr base64url r now = some (r', w')) :
    r' = r ∧ WriterReady fromStr history w' := by
  cases w with
  | idle => cases advanced
  | failed => cases advanced
  | exec write existing next previous => exact absurd rfl (quiet write existing next previous)
  | read write retried =>
    simp only [HeadWriter.advance] at advanced
    split at advanced
    · cases advanced
      exact ⟨rfl, trivial⟩
    next next built =>
      cases advanced
      exact ⟨rfl, next_prepared ready (fun state read => (stored _ state read).own) built⟩
  | check write existing next retried =>
    have race : WriterReady fromStr history (afterRace write retried) := by
      unfold afterRace
      split
      · trivial
      · exact Prepared.legal ready
    simp only [HeadWriter.advance] at advanced
    split at advanced <;> cases advanced
    · exact ⟨rfl, ready⟩
    · exact ⟨rfl, race⟩
    · exact ⟨rfl, race⟩
    · exact ⟨rfl, ready⟩

theorem headStep_keeps {t : HeadSystem} {e : HeadEvent} (h : HeadInvariant fromStr history s)
    (undisturbed : Undisturbed fromStr history s e)
    (next : headStep fromStr base64url s e = some t) :
    HeadInvariant fromStr history t ∧ RevisionsGrow fromStr s t := by
  have others : ∀ {i : Nat} {w : HeadWriter}, WriterReady fromStr history w →
      ∀ j, WriterReady fromStr history (Function.update s.writers i w j) := by
    intro i w own j
    by_cases same : j = i
    · subst same
      simpa using own
    · simpa [same] using h.ready j
  cases e with
  | start i write =>
    simp only [headStep, Option.ite_none_right_eq_some, Option.some.injEq] at next
    obtain ⟨_, rfl⟩ := next
    exact ⟨⟨h.stored, others undisturbed⟩, RevisionsGrow.refl h⟩
  | advance i now =>
    simp only [headStep, Option.map_eq_some_iff] at next
    obtain ⟨⟨r', w'⟩, advanced, rfl⟩ := next
    by_cases executes : ∃ write existing next previous,
        s.writers i = .exec write existing next previous
    · obtain ⟨write, existing, next, previous, at_⟩ := executes
      have prepared : Prepared fromStr history write existing next := by
        simpa [at_, WriterReady] using h.ready i
      obtain ⟨same, suits⟩ : s.redis.repo write.did = existing ∧
          Suits fromStr history existing write := by
        simpa [Undisturbed, FindsItsRead, at_] using undisturbed
      rw [at_] at advanced
      obtain ⟨rfl, repo⟩ := advance_exec_repo advanced
      rw [prepared.did] at repo
      refine ⟨⟨fun did state stored => ?_, others trivial⟩, fun did state stored => ?_⟩
      · simp only [repo, Function.update_apply] at stored
        split at stored
        next own =>
          cases stored
          exact own ▸ prepared.rooted suits
        next => exact h.stored did state stored
      · by_cases own : did = write.did
        · subst own
          refine ⟨next, by simp [repo], ?_⟩
          exact prepared.grows suits (same.symm.trans stored) (h.stored _ state stored)
        · obtain ⟨tid, parsed⟩ := Option.isSome_iff_exists.mp (h.stored did state stored).tid
          exact ⟨state, by simp [repo, own, stored], tid, tid, parsed, parsed, le_refl tid⟩
    · have quiet : ∀ write existing next previous,
          s.writers i ≠ .exec write existing next previous := by
        intro write existing next previous at_
        exact executes ⟨write, existing, next, previous, at_⟩
      obtain ⟨rfl, ready⟩ := advance_quiet quiet h.stored (h.ready i) advanced
      exact ⟨⟨h.stored, others ready⟩, RevisionsGrow.refl (s := s) h⟩

/-- In every run whose MULTIs are undisturbed, between any two states of the run
no stored revision goes backwards, and every stored root belongs to its revision. -/
theorem revisions_grow (fromStr : String → Option Tid) (base64url : Bytes → String)
    (history : History) (s₀ s t : HeadSystem)
    (stored : ∀ did state, s₀.redis.repo did = some state → Rooted fromStr history did state)
    (quiet : ∀ i, s₀.writers i = .idle)
    (before : Reaches (ofFunction (headStep fromStr base64url)) (Undisturbed fromStr history) s₀ s)
    (run : Reaches (ofFunction (headStep fromStr base64url)) (Undisturbed fromStr history) s t) :
    RevisionsGrow fromStr s t ∧
      ∀ did state, t.redis.repo did = some state →
        state.rootCid = some (history.dataRoot did state.rev) := by
  have start : HeadInvariant fromStr history s₀ := ⟨stored, fun i => by simp [quiet i, WriterReady]⟩
  have keeps : ∀ s e t, HeadInvariant fromStr history s → Undisturbed fromStr history s e →
      ofFunction (headStep fromStr base64url) s e t → HeadInvariant fromStr history t :=
    fun _ _ _ h undisturbed next => (headStep_keeps h undisturbed next).1
  have middle := before.invariant keeps start
  refine ⟨run.relates (I := HeadInvariant fromStr history) (fun _ h => RevisionsGrow.refl h)
    (fun _ _ _ _ _ _ first second => first.trans second) keeps
    (fun _ _ _ h undisturbed next => (headStep_keeps h undisturbed next).2) middle, ?_⟩
  exact fun did state stored => ((run.invariant keeps middle).stored did state stored).root

end

def tidOf (text : String) : Option String := if text.length = 13 then some text else none

def twoCommits : History where
  dataRoot _ rev := if rev = "3l4xqw2a2s22a" then "bafydata1" else "bafydata2"
  commitCid _ rev := if rev = "3l4xqw2a2s22a" then "bafycommit1" else "bafycommit2"

def firstWrite : HeadWrite :=
  .verified
    ⟨"did:plc:eve", "3l4xqw2a2s22a", none, ⟨"bafycommit1", by decide⟩, none, false, [], []⟩
    ⟨"did:plc:eve", ⟨"bafydata1", by decide⟩, "3l4xqw2a2s22a", none, [], []⟩

def secondWrite : HeadWrite :=
  .verified
    ⟨"did:plc:eve", "3l4xqw2a2s22b", none, ⟨"bafycommit2", by decide⟩, none, false, [], []⟩
    ⟨"did:plc:eve", ⟨"bafydata2", by decide⟩, "3l4xqw2a2s22b", none, [], []⟩

def emptySystem : HeadSystem :=
  ⟨⟨fun _ => none, [], fun _ => [], fun _ => false⟩, fun _ => .idle⟩

def writeAlone (i : Nat) (write : HeadWrite) : List HeadEvent :=
  [.start i write, .advance i "t", .advance i "t", .advance i "t"]

abbrev sampleStep : HeadSystem → HeadEvent → Option HeadSystem := headStep tidOf (fun _ => "")

theorem revisions_grow_ordered :
    ∃ s t, runGuarded sampleStep (Undisturbed tidOf twoCommits) emptySystem
        (writeAlone 0 firstWrite) = some s ∧
      runGuarded sampleStep (Undisturbed tidOf twoCommits) s (writeAlone 1 secondWrite) = some t ∧
      RevisionsGrow tidOf s t := by
  have both : ((runGuarded sampleStep (Undisturbed tidOf twoCommits) emptySystem
      (writeAlone 0 firstWrite)).bind fun s =>
        runGuarded sampleStep (Undisturbed tidOf twoCommits) s (writeAlone 1 secondWrite)).isSome =
      true := by decide
  obtain ⟨t, ran⟩ := Option.isSome_iff_exists.mp both
  obtain ⟨s, first, second⟩ := Option.bind_eq_some_iff.mp ran
  exact ⟨s, t, first, second, (revisions_grow tidOf (fun _ => "") twoCommits emptySystem s t nofun
    (fun _ => rfl) (reaches_of_runGuarded _ _ _ first) (reaches_of_runGuarded _ _ _ second)).1⟩

def lostUpdate : List HeadEvent :=
  [.start 0 secondWrite, .start 1 firstWrite, .advance 0 "t", .advance 1 "t", .advance 0 "t",
    .advance 1 "t", .advance 0 "t"]

/-- Two verified commits that overlap leave the older revision in place of the
newer one, and a rebuild stores the CID of its commit as the root. -/
theorem revisions_regress :
    (¬ ∀ s t, Reaches (ofFunction sampleStep) (legalEvent tidOf twoCommits) emptySystem s →
      Reaches (ofFunction sampleStep) (legalEvent tidOf twoCommits) s t → RevisionsGrow tidOf s t) ∧
    ¬ ∀ s, Reaches (ofFunction sampleStep) (legalEvent tidOf twoCommits) emptySystem s →
      ∀ did state, s.redis.repo did = some state →
        state.rootCid = some (twoCommits.dataRoot did state.rev) := by
  constructor
  · intro claimed
    have values : ((runGuarded sampleStep (legalEvent tidOf twoCommits) emptySystem lostUpdate).bind
        fun s => (runGuarded sampleStep (legalEvent tidOf twoCommits) s [.advance 1 "t"]).map
          fun t => ((s.redis.repo "did:plc:eve").map (·.rev), (t.redis.repo "did:plc:eve").map (·.rev))) =
        some (some "3l4xqw2a2s22b", some "3l4xqw2a2s22a") := by decide
    obtain ⟨s, first, rest⟩ := Option.bind_eq_some_iff.mp values
    obtain ⟨t, second, revs⟩ := Option.map_eq_some_iff.mp rest
    simp only [Prod.mk.injEq, Option.map_eq_some_iff] at revs
    obtain ⟨⟨state, stored, rev⟩, state', stored', rev'⟩ := revs
    obtain ⟨last, storedLast, l, r, la, rb, le⟩ := claimed s t (reaches_of_runGuarded _ _ _ first)
      (reaches_of_runGuarded _ _ _ second) "did:plc:eve" state stored
    cases stored'.symm.trans storedLast
    rw [rev] at la
    rw [rev'] at rb
    cases la
    cases rb
    exact absurd le (by decide)
  · intro claimed
    have values : (runGuarded sampleStep (legalEvent tidOf twoCommits) emptySystem
        (writeAlone 0 (.rebuilt "did:plc:eve" "bafycommit1" "3l4xqw2a2s22a"))).map
          (fun s => (s.redis.repo "did:plc:eve").map (·.head)) =
        some (some (some "bafycommit1", "3l4xqw2a2s22a")) := by decide
    obtain ⟨s, ran, heads⟩ := Option.map_eq_some_iff.mp values
    obtain ⟨state, stored, head⟩ := Option.map_eq_some_iff.mp heads
    obtain ⟨root, rev⟩ := Prod.mk.inj head
    have rooted := claimed s (reaches_of_runGuarded _ _ _ ran) "did:plc:eve" state stored
    rw [root, rev] at rooted
    exact absurd rooted (by decide)

end MastopodFederation.Guarantees.HeadRevisions
