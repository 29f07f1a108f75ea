import MastopodFederation.Lib.Logged
import MastopodFederation.Source.RepoHead

/-!
# The head after a rebuild and the head after verification

A verified head stores the data root of its commit as `rootCid`, a rebuilt one the CID of the
commit itself. `checkContinuity` compares it with `prevData`, so the two heads decide alike
exactly for commits whose `prevData` is neither or whose earlier checks already settle it.
-/
namespace MastopodFederation.Guarantees.RebuildContinuity
open Lib.Logged Source.Cbor Source.CommitEvent Source.RepoState Source.RepoHead

structure SignedCommit where
  parsed : ParsedCommitEventBody
  commit : CommitBlock
  now : String

section
variable {Tid : Type} [LinearOrder Tid] (fromStr : String → Option Tid)
  (base64url : Bytes → String)

def Precedes (a b : SignedCommit) : Prop :=
  ∃ l r, fromStr a.parsed.rev = some l ∧ fromStr b.parsed.rev = some r ∧ l < r

structure Follows (a b : SignedCommit) : Prop where
  rev : Precedes fromStr a b
  since : b.parsed.since = some a.parsed.rev
  prevData : b.parsed.prevDataCid = some a.commit.data

def persist (stored : Option RepositoryState) (c : SignedCommit) : Option RepositoryState :=
  (HeadWrite.verified c.parsed c.commit).alone fromStr base64url stored c.now

def verifyHistory (history : List SignedCommit) : Option RepositoryState :=
  history.foldl (persist fromStr base64url) none

variable {fromStr base64url} {stored : Option RepositoryState}

variable (base64url) in
theorem persist_head {c : SignedCommit}
    (older : ∀ state, stored = some state → atOrPast fromStr state.rev c.parsed.rev = false) :
    (persist fromStr base64url stored c).map (·.head) =
      some (some c.commit.data.text, c.parsed.rev) := by
  have absent : stored.any (fun state => atOrPast fromStr state.rev c.parsed.rev) = false := by
    cases stored with
    | none => rfl
    | some state => simpa using older state rfl
  simp [persist, HeadWrite.alone, HeadWrite.next, absent]

theorem atOrPast_of_precedes {a b : SignedCommit} (older : Precedes fromStr a b) :
    atOrPast fromStr a.parsed.rev b.parsed.rev = false := by
  obtain ⟨l, r, la, rb, lt⟩ := older
  rw [Bool.eq_false_iff, ne_eq, atOrPast_tid la rb, not_le]
  exact lt

variable (base64url) in
theorem verifyHistory_head (earlier : List SignedCommit) (latest : SignedCommit)
    (chain : (earlier ++ [latest]).IsChain (Precedes fromStr)) :
    (verifyHistory fromStr base64url (earlier ++ [latest])).map (·.head) =
      some (some latest.commit.data.text, latest.parsed.rev) := by
  induction earlier using List.reverseRecOn generalizing latest with
  | nil =>
    have first : (persist fromStr base64url none latest).map (·.head) =
        some (some latest.commit.data.text, latest.parsed.rev) := persist_head base64url nofun
    simpa [verifyHistory] using first
  | append_singleton before last ih =>
    have previous := ih last chain.left_of_append
    have older : Precedes fromStr last latest :=
      (List.isChain_append.mp chain).2.2 last (by simp) latest (by simp)
    rw [verifyHistory, List.foldl_append, ← verifyHistory]
    refine persist_head base64url fun state stored => ?_
    rw [stored, Option.map_some, Option.some.injEq] at previous
    rw [show state.rev = last.parsed.rev from congrArg Prod.snd previous]
    exact atOrPast_of_precedes older

def SinceMatches (storedRev : String) (later : ParsedCommitEventBody) : Prop :=
  ∀ since, later.since = some since → since = "" ∨ storedRev = "" ∨ storedRev = since

/-- The commit is newer than `latest`, its `since` fits, and its `prevData` is one
of the data root and the commit CID of `latest` but not both. -/
def NamesOneRoot (fromStr : String → Option Tid) (latest : SignedCommit)
    (later : ParsedCommitEventBody) : Prop :=
  compareRevisionStrings fromStr latest.parsed.rev later.rev = .lt ∧
    SinceMatches latest.parsed.rev later ∧
    ∃ prevData, later.prevDataCid = some prevData ∧
      ¬ (prevData = latest.commit.data ↔ prevData = latest.parsed.commitCid)

theorem cid_text_inj {a b : Cid} : a.text = b.text ↔ a = b := by
  constructor
  · intro same
    cases a
    cases b
    cases same
    rfl
  · rintro rfl
    rfl

variable {state : RepositoryState}

/-- A state asks for a rebuild on its head alone: the revision is behind and
`since` or `prevData` differ from it. -/
theorem checkContinuity_isSome {root : Cid} {rev : String}
    (head : state.head = (some root.text, rev)) (later : ParsedCommitEventBody) :
    (checkContinuity fromStr (some state) later).isSome = true ↔
      compareRevisionStrings fromStr rev later.rev = .lt ∧
        (¬ SinceMatches rev later ∨ ∃ prevData, later.prevDataCid = some prevData ∧
          root ≠ prevData) := by
  obtain ⟨rootCid, rfl⟩ := Prod.mk.inj head
  have since : (sinceMismatch fromStr state later).isSome = true ↔
      compareRevisionStrings fromStr state.rev later.rev = .lt ∧ ¬ SinceMatches state.rev later := by
    unfold sinceMismatch SinceMatches
    cases later.since <;> simp [behind]
    grind
  have data : (rootMismatch fromStr state later).isSome = true ↔
      compareRevisionStrings fromStr state.rev later.rev = .lt ∧
        ∃ prevData, later.prevDataCid = some prevData ∧ root ≠ prevData := by
    unfold rootMismatch
    cases later.prevDataCid <;> simp [behind, rootCid, root.nonempty, cid_text_inj]
  simp only [checkContinuity, Option.isSome_or, Bool.or_eq_true, since, data]
  grind

theorem rebuildRepoInner_head {sources : SyncSources} {did now pds cid rev : String}
    (endpoint : sources.resolveDocument did = .ok (some pds))
    (latest : sources.fetchLatestCommit pds did = .ok (cid, rev))
    (rebuilt : rebuildRepoInner sources stored did now = .ok state) :
    state.head = (some cid, rev) := by
  simp only [rebuildRepoInner, except_bind_ok, endpoint, Except.ok.injEq, exists_eq_left',
    latest] at rebuilt
  obtain ⟨repoBytes, _, rootCid, _, checked⟩ := rebuilt
  split at checked
  · cases checked
  next same =>
    cases checked
    rw [not_not] at same
    rw [buildRebuilt_head, same]

/-- The decision on a later commit, after a rebuild at `latest` and after verifying
the history up to `latest`, is the same exactly unless the commit names one of the
two roots of `latest`. -/
theorem decisions_agree_iff (earlier : List SignedCommit) (latest : SignedCommit)
    (chain : (earlier ++ [latest]).IsChain (Precedes fromStr)) (sources : SyncSources)
    (stored : Option RepositoryState) (did now pds : String)
    (endpoint : sources.resolveDocument did = .ok (some pds))
    (fetched : sources.fetchLatestCommit pds did =
      .ok (latest.parsed.commitCid.text, latest.parsed.rev))
    (state : RepositoryState) (rebuilt : rebuildRepoInner sources stored did now = .ok state)
    (later : ParsedCommitEventBody) :
    (checkContinuity fromStr (some state) later).isSome =
        (checkContinuity fromStr (verifyHistory fromStr base64url (earlier ++ [latest])) later).isSome ↔
      ¬ NamesOneRoot fromStr latest later := by
  obtain ⟨verified, kept, head⟩ :=
    Option.map_eq_some_iff.mp (verifyHistory_head base64url earlier latest chain)
  rw [kept, Bool.eq_iff_iff, checkContinuity_isSome (rebuildRepoInner_head endpoint fetched rebuilt),
    checkContinuity_isSome head]
  simp only [NamesOneRoot]
  grind

end

def tidOf (text : String) : Option String := if text.length = 13 then some text else none

theorem commit1 : "bafycommit1" ≠ "" := by decide

theorem commit2 : "bafycommit2" ≠ "" := by decide

theorem data1 : "bafydata1" ≠ "" := by decide

theorem data2 : "bafydata2" ≠ "" := by decide

def firstCommit : SignedCommit :=
  ⟨⟨"did:plc:eve", "3l4xqw2a2s22a", none, ⟨"bafycommit1", commit1⟩, none, false, [], []⟩,
    ⟨"did:plc:eve", ⟨"bafydata1", data1⟩, "3l4xqw2a2s22a", none, [], []⟩, "t1"⟩

def secondCommit : SignedCommit :=
  ⟨⟨"did:plc:eve", "3l4xqw2a2s22b", some "3l4xqw2a2s22a", ⟨"bafycommit2", commit2⟩,
      some ⟨"bafydata1", data1⟩, false, [], []⟩,
    ⟨"did:plc:eve", ⟨"bafydata2", data2⟩, "3l4xqw2a2s22b", none, [], []⟩, "t2"⟩

def firstSources : SyncSources where
  resolveDocument _ := .ok (some "https://pds.example")
  fetchRepoCar _ := .ok []
  fetchLatestCommit _ _ := .ok ("bafycommit1", "3l4xqw2a2s22a")
  readCarRootCid _ := .ok "bafycommit1"

theorem decisions_agree_iff_first :
    (checkContinuity tidOf (some (buildRebuiltRepoState none "did:plc:eve" "bafycommit1"
        "3l4xqw2a2s22a" "t")) { secondCommit.parsed with prevDataCid := none }).isSome =
      (checkContinuity tidOf (verifyHistory tidOf (fun _ => "") [firstCommit])
        { secondCommit.parsed with prevDataCid := none }).isSome := by
  refine (decisions_agree_iff [] firstCommit (by simp) firstSources none "did:plc:eve" "t"
    "https://pds.example" rfl rfl _ rfl _).mpr ?_
  rintro ⟨_, _, _, named, _⟩
  cases named

/-- The honest second commit continues a verified first one, and asks for another
rebuild after a rebuild at the first one. -/
theorem rebuild_disagrees :
    ¬ ∀ (earlier : List SignedCommit) (latest : SignedCommit) (sources : SyncSources)
        (state : RepositoryState) (later : SignedCommit),
      (earlier ++ [latest, later]).IsChain (Follows tidOf) →
      sources.resolveDocument "did:plc:eve" = .ok (some "https://pds.example") →
      sources.fetchLatestCommit "https://pds.example" "did:plc:eve" =
        .ok (latest.parsed.commitCid.text, latest.parsed.rev) →
      rebuildRepoInner sources none "did:plc:eve" "t" = .ok state →
      (checkContinuity tidOf (some state) later.parsed).isSome =
        (checkContinuity tidOf (verifyHistory tidOf (fun _ => "") (earlier ++ [latest]))
          later.parsed).isSome := by
  intro claimed
  have follows : Follows tidOf firstCommit secondCommit :=
    ⟨⟨_, _, rfl, rfl, by decide⟩, rfl, rfl⟩
  have same := claimed [] firstCommit firstSources _ secondCommit (by simpa using follows) rfl rfl rfl
  exact absurd same (by decide)

end MastopodFederation.Guarantees.RebuildContinuity
