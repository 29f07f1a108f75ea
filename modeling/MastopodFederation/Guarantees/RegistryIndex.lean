import MastopodFederation.Source.RepoRegistry

/-!
# Completeness of the collection index

`loadCollectionIndex` prunes members whose state did not list the NSID when it was read. The
removal is a later command, so an `update` in between that lists the NSID is undone in the index
while the marker stays set. Every other step keeps the index complete. The empty NSID is never
indexed (`collectionNsids` drops it).
-/
namespace MastopodFederation.Guarantees.RegistryIndex
open Lib.GuardedRun Source.RepoState Source.RepoRegistry

def Lists (r : Redis) (nsid : Nsid) (did : Did) : Prop :=
  ∃ state, r.repo did = some state ∧ lists state nsid = true

def Unindexed (r : Redis) (nsid : Nsid) (did : Did) : Prop :=
  Lists r nsid did ∧ did ∉ r.collection nsid

def prunes : Worker → Nsid × List Did
  | .loadPrune nsid stale _ => (nsid, stale.take repoMgetBatch)
  | _ => ("", [])

def PrunesStale (s : System) : Event → Prop
  | .advance i _ => ∀ did ∈ (prunes (s.workers i)).2, ¬ Lists s.redis (prunes (s.workers i)).1 did
  | .call _ _ => True

instance (r : Redis) (nsid : Nsid) (did : Did) : Decidable (Lists r nsid did) :=
  decidable_of_iff ((r.repo did).any (lists · nsid) = true) (Option.any_eq_true _ _)

instance (s : System) : ∀ e : Event, Decidable (PrunesStale s e)
  | .advance i _ => inferInstanceAs
      (Decidable (∀ did ∈ (prunes (s.workers i)).2, ¬ Lists s.redis (prunes (s.workers i)).1 did))
  | .call _ _ => .isTrue trivial

variable {did d : Did} {members : List Did}

@[simp] theorem mem_sadd :
    d ∈ sadd members did ↔ d = did ∨ d ∈ members := by
  unfold sadd
  split
  next present =>
    constructor
    · exact .inr
    · rintro (rfl | h)
      · exact present
      · exact h
  next => simp

@[simp] theorem mem_srem :
    d ∈ srem members did ↔ d ∈ members ∧ d ≠ did := by
  simp [srem]

@[simp] theorem mem_foldl_sadd (dids members : List Did) (d : Did) :
    d ∈ dids.foldl sadd members ↔ d ∈ dids ∨ d ∈ members := by
  induction dids generalizing members with
  | nil => simp
  | cons first rest ih =>
    rw [List.foldl_cons, ih, mem_sadd, List.mem_cons]
    grind

@[simp] theorem mem_foldl_srem (dids members : List Did) (d : Did) :
    d ∈ dids.foldl srem members ↔ d ∈ members ∧ d ∉ dids := by
  induction dids generalizing members with
  | nil => simp
  | cons first rest ih =>
    rw [List.foldl_cons, ih, mem_srem, List.mem_cons]
    grind

variable {nsid : Nsid} {state : RepositoryState}

theorem mem_collectionNsids :
    nsid ∈ collectionNsids state ↔ lists state nsid = true ∧ nsid ≠ "" := by
  simp only [collectionNsids, List.mem_eraseDups, List.mem_filter, List.mem_map, decide_eq_true_eq,
    lists, List.any_eq_true, beq_iff_eq]

variable {r : Redis} {dids : List Did}

theorem mem_matchingDids :
    did ∈ matchingDids nsid (r.mget dids) ↔ did ∈ dids ∧ Lists r nsid did := by
  simp only [matchingDids, Redis.mget, List.mem_map, List.mem_filter, Option.any_eq_true, Lists]
  constructor
  · rintro ⟨_, ⟨⟨d, mem, rfl⟩, state, stored, listed⟩, rfl⟩
    exact ⟨mem, state, stored, listed⟩
  · rintro ⟨mem, state, stored, listed⟩
    exact ⟨(did, r.repo did), ⟨⟨did, mem, rfl⟩, state, stored, listed⟩, rfl⟩

theorem mem_matchingStates :
    state ∈ matchingStates nsid (r.mget dids) ↔
      ∃ did ∈ dids, r.repo did = some state ∧ lists state nsid = true := by
  simp only [matchingStates, Redis.mget, List.mem_filterMap, List.mem_map, Option.filter_eq_some_iff]
  constructor
  · rintro ⟨_, ⟨did, mem, rfl⟩, stored, listed⟩
    exact ⟨did, mem, stored, listed⟩
  · rintro ⟨did, mem, stored, listed⟩
    exact ⟨(did, r.repo did), ⟨did, mem, rfl⟩, stored, listed⟩

/-- `update` and `register` index the state they store; the other states and
their index entries are untouched. -/
theorem stored_unindexed {r' : Redis} (state : RepositoryState)
    (stores : r'.repo = Function.update r.repo state.did (some state))
    (indexes : lists state nsid = true → state.did ∈ r'.collection nsid)
    (keeps : ∀ d, d ≠ state.did → d ∈ r.collection nsid → d ∈ r'.collection nsid)
    (h : Unindexed r' nsid did) : did ≠ state.did ∧ Unindexed r nsid did := by
  obtain ⟨⟨s, stored, listed⟩, missing⟩ := h
  rw [stores] at stored
  by_cases same : did = state.did
  · subst same
    rw [Function.update_self, Option.some.injEq] at stored
    exact absurd (indexes (stored ▸ listed)) missing
  · rw [Function.update_of_ne same] at stored
    exact ⟨same, ⟨s, stored, listed⟩, fun present => missing (keeps did same present)⟩

theorem execRegister_unindexed
    (named : nsid ≠ "") (h : Unindexed (r.execRegister state) nsid did) : Unindexed r nsid did := by
  refine (stored_unindexed state rfl ?_ ?_ h).2
  · intro listed
    simp [Redis.execRegister, mem_collectionNsids, listed, named]
  · intro d _ present
    simp only [Redis.execRegister]
    split <;> simp [present]

theorem execUpdate_unindexed {previous : RepositoryState}
    (named : nsid ≠ "") (h : Unindexed (r.execUpdate state previous) nsid did) :
    Unindexed r nsid did := by
  refine (stored_unindexed state rfl ?_ ?_ h).2
  · intro listed
    simp [Redis.execUpdate, mem_collectionNsids, listed, named]
  · intro d other present
    simp only [Redis.execUpdate]
    split
    · simp [present]
    · split <;> simp [present, other]

theorem execDelete_unindexed {previous : Option RepositoryState}
    (h : Unindexed (r.execDelete d previous) nsid did) :
    did ≠ d ∧ Unindexed r nsid did := by
  obtain ⟨⟨s, stored, listed⟩, missing⟩ := h
  by_cases same : did = d
  · subst same
    simp [Redis.execDelete] at stored
  · simp only [Redis.execDelete, Function.update_of_ne same] at stored
    refine ⟨same, ⟨s, stored, listed⟩, fun present => missing ?_⟩
    simp only [Redis.execDelete]
    split <;> simp [present, same]

variable {n : Nsid}

theorem saddCollection_unindexed
    (h : Unindexed (r.saddCollection n dids) nsid did) :
    Unindexed r nsid did ∧ (nsid = n → did ∉ dids) := by
  obtain ⟨listed, missing⟩ := h
  by_cases same : nsid = n
  · subst same
    simp only [Redis.saddCollection, Function.update_self, mem_foldl_sadd, not_or] at missing
    exact ⟨⟨listed, missing.2⟩, fun _ => missing.1⟩
  · simp only [Redis.saddCollection, Function.update_of_ne same] at missing
    exact ⟨⟨listed, missing⟩, fun h => absurd h same⟩

theorem sremCollection_unindexed
    (stale : ∀ d ∈ dids, ¬ Lists r n d) (h : Unindexed (r.sremCollection n dids) nsid did) :
    Unindexed r nsid did := by
  obtain ⟨listed, missing⟩ := h
  refine ⟨listed, fun present => missing ?_⟩
  by_cases same : nsid = n
  · subst same
    simp only [Redis.sremCollection, Function.update_self, mem_foldl_srem]
    exact ⟨present, fun mem => stale did mem listed⟩
  · simpa only [Redis.sremCollection, Function.update_of_ne same] using present

/-- DIDs a backfill of an NSID still owes to its index: members not returned by
the scan yet, and returned ones not read or not added yet. -/
def owes : Worker → Option (Nsid × List Did)
  | .backfillScan nsid (some unseen) => some (nsid, unseen)
  | .backfillRead nsid unseen chunks _ => some (nsid, unseen ++ chunks)
  | .backfillAdd nsid unseen matching chunks _ => some (nsid, unseen ++ (matching ++ chunks))
  | .backfillMark nsid => some (nsid, [])
  | _ => none

def Closed : Worker → Prop
  | .backfillRead _ unseen _ last => last = true → unseen = []
  | .backfillAdd _ unseen _ _ last => last = true → unseen = []
  | _ => True

structure Complete (s : System) : Prop where
  marked : ∀ nsid, nsid ≠ "" → s.redis.complete nsid = true → ∀ did, ¬ Unindexed s.redis nsid did
  listed : ∀ nsid, nsid ≠ "" → ∀ did, Unindexed s.redis nsid did → did ∈ s.redis.repos ∧ did ≠ ""
  closed : ∀ i, Closed (s.workers i)
  owed : ∀ i nsid dids, nsid ≠ "" → owes (s.workers i) = some (nsid, dids) →
    ∀ did, Unindexed s.redis nsid did → did ∈ dids

variable {s : System}

theorem fresh_complete (fresh : Fresh s) : Complete s where
  marked nsid _ marked := by simp [fresh.unmarked] at marked
  listed nsid _ did h := by
    obtain ⟨⟨state, stored, _⟩, _⟩ := h
    exact ⟨fresh.listed did state stored, fresh.named did (fresh.listed did state stored)⟩
  closed i := by simp [fresh.quiet, Closed]
  owed i nsid dids _ owes' := by simp [fresh.quiet, owes] at owes'

structure Keeps (r : Redis) (w : Worker) (r' : Redis) (w' : Worker) : Prop where
  unindexed : ∀ nsid, nsid ≠ "" → ∀ did, Unindexed r' nsid did →
    Unindexed r nsid did ∧ w.leaves ≠ some did
  repos : ∀ did, did ∈ r.repos → w.leaves ≠ some did → did ∈ r'.repos
  complete : ∀ nsid, r'.complete nsid = true → r.complete nsid = true ∨ w = .backfillMark nsid
  closed : Closed w'
  owed : ∀ nsid dids, nsid ≠ "" → owes w' = some (nsid, dids) → ∀ did, Unindexed r' nsid did →
    did ∈ r.repos → did ≠ "" → (∀ before, owes w = some (nsid, before) → did ∈ before) → did ∈ dids

variable {w : Worker}

theorem Keeps.quiet {w' : Worker} (leaves : w.leaves = none)
    (owes' : owes w' = none) (closed : Closed w') : Keeps r w r w' where
  unindexed _ _ _ h := ⟨h, by simp [leaves]⟩
  repos _ mem _ := mem
  complete _ marked := .inl marked
  closed := closed
  owed nsid dids _ h := by simp [owes'] at h

variable {chunks : List Did}

theorem closed_afterChunk {unseen : List Did} {last : Bool}
    (closed : last = true → unseen = []) : Closed (afterChunk nsid unseen chunks last) := by
  cases chunks with
  | cons first rest => exact closed
  | nil => cases last <;> exact trivial

theorem owes_afterChunk {unseen : List Did} {last : Bool}
    (closed : last = true → unseen = [])
    (h : owes (afterChunk n unseen chunks last) = some (nsid, dids)) :
    n = nsid ∧ ∀ did, did ∈ unseen ∨ did ∈ chunks → did ∈ dids := by
  cases chunks with
  | cons first rest =>
    simp only [afterChunk, owes, Option.some.injEq, Prod.mk.injEq] at h
    obtain ⟨rfl, rfl⟩ := h
    exact ⟨rfl, fun did mem => List.mem_append.mpr mem⟩
  | nil =>
    cases last with
    | false =>
      simp only [afterChunk, Bool.false_eq_true, if_false, owes, Option.some.injEq,
        Prod.mk.injEq] at h
      obtain ⟨rfl, rfl⟩ := h
      exact ⟨rfl, fun did mem => mem.elim id (by simp)⟩
    | true =>
      simp only [afterChunk, if_true, owes, Option.some.injEq, Prod.mk.injEq] at h
      obtain ⟨rfl, rfl⟩ := h
      simp [closed rfl]

variable {results : List RepositoryState}

@[simp] theorem owes_afterLoad {stale : List Did}
    : owes (afterLoad nsid members results stale) = none := by
  unfold afterLoad
  split <;> rfl

@[simp] theorem closed_afterLoad {stale : List Did}
    : Closed (afterLoad nsid members results stale) := by
  unfold afterLoad
  split <;> exact trivial

theorem mem_chunk (mem : did ∈ chunks)
    (listed : Lists r nsid did) :
    did ∈ matchingDids nsid (r.mget (chunks.take repoMgetBatch)) ∨
      did ∈ chunks.drop repoMgetBatch := by
  rw [← List.take_append_drop repoMgetBatch chunks, List.mem_append] at mem
  exact mem.imp (fun h => mem_matchingDids.mpr ⟨h, listed⟩) id

/-- The step lemma: no command but a removal of live members adds an unindexed
DID, and a backfill keeps owing every one of them until it has indexed it. -/
theorem advance_keeps {r' : Redis} {w' : Worker} {page : ScanPage}
    (stale : ∀ did ∈ (prunes w).2, ¬ Lists r (prunes w).1 did)
    (closed : Closed w) (next : w.advance r page = some (r', w')) : Keeps r w r' w' := by
  cases w with
  | idle => cases next
  | loaded nsid results => cases next
  | failed => cases next
  | registerExists state =>
    simp only [Worker.advance] at next
    split at next <;> cases next <;> exact .quiet rfl rfl trivial
  | updateGet state =>
    simp only [Worker.advance] at next
    split at next <;> cases next <;> exact .quiet rfl rfl trivial
  | deleteGet did =>
    cases next
    exact .quiet rfl rfl trivial
  | collectionGet nsid =>
    simp only [Worker.advance] at next
    split at next <;> cases next <;> exact .quiet rfl rfl trivial
  | loadMembers nsid =>
    cases next
    exact .quiet rfl (by simp) (by simp)
  | loadRead nsid members results stale =>
    cases next
    exact .quiet rfl (by simp) (by simp)
  | registerExec state =>
    cases next
    refine ⟨fun nsid named did h => ⟨execRegister_unindexed named h, by simp [Worker.leaves]⟩,
      fun did mem _ => ?_, fun nsid marked => .inl marked, trivial, fun nsid dids _ h => ?_⟩
    · simp [Redis.execRegister, mem]
    · cases h
  | updateExec state previous =>
    cases next
    refine ⟨fun nsid named did h => ⟨execUpdate_unindexed named h, by simp [Worker.leaves]⟩,
      fun did mem _ => mem, fun nsid marked => .inl marked, trivial, fun nsid dids _ h => ?_⟩
    cases h
  | deleteExec d previous =>
    cases next
    refine ⟨fun nsid named did h => ?_, fun did mem other => ?_, fun nsid marked => .inl marked,
      trivial, fun nsid dids _ h => ?_⟩
    · obtain ⟨other, unindexed⟩ := execDelete_unindexed h
      exact ⟨unindexed, by simpa [Worker.leaves] using Ne.symm other⟩
    · simp only [Worker.leaves, ne_eq, Option.some.injEq] at other
      simp [Redis.execDelete, mem, Ne.symm other]
    · cases h
  | backfillScan nsid unseen =>
    simp only [Worker.advance] at next
    split at next
    · cases next
    next full =>
      cases next
      have returned : page.last = true →
          (unseen.getD r.repos).filter (· ∉ page.dids) = [] := by
        intro last
        simpa [last] using full
      refine ⟨fun n _ did h => ⟨h, by simp [Worker.leaves]⟩, fun did mem _ => mem,
        fun n marked => .inl marked, closed_afterChunk returned, ?_⟩
      intro n dids _ owes' did h mem named before
      obtain ⟨rfl, holds⟩ := owes_afterChunk returned owes'
      apply holds
      -- the DID is owed: either this page returned it or it stays unseen
      have owed : did ∈ unseen.getD r.repos := by
        cases unseen with
        | none => exact mem
        | some u => exact before u rfl
      by_cases seen : did ∈ page.dids
      · exact .inr (by simp [seen, named])
      · exact .inl (by simp [seen, owed])
  | backfillRead nsid unseen chunks last =>
    simp only [Worker.advance] at next
    split at next
    next unmatched =>
      cases next
      refine ⟨fun n _ did h => ⟨h, by simp [Worker.leaves]⟩, fun did mem _ => mem,
        fun n marked => .inl marked, closed_afterChunk closed, ?_⟩
      intro n dids _ owes' did h _ _ before
      obtain ⟨rfl, holds⟩ := owes_afterChunk closed owes'
      apply holds
      rcases List.mem_append.mp (before _ rfl) with mem | mem
      · exact .inl mem
      · have := mem_chunk mem h.1
        rw [unmatched] at this
        exact .inr (this.elim (by simp) id)
    next matching _ =>
      cases next
      refine ⟨fun n _ did h => ⟨h, by simp [Worker.leaves]⟩, fun did mem _ => mem,
        fun n marked => .inl marked, closed, ?_⟩
      intro n dids _ owes' did h _ _ before
      simp only [owes, Option.some.injEq, Prod.mk.injEq] at owes'
      obtain ⟨rfl, rfl⟩ := owes'
      simp only [List.mem_append]
      rcases List.mem_append.mp (before _ rfl) with mem | mem
      · exact .inl mem
      · exact .inr (mem_chunk mem h.1)
  | backfillAdd nsid unseen matching chunks last =>
    cases next
    refine ⟨fun n _ did h => ⟨(saddCollection_unindexed h).1, by simp [Worker.leaves]⟩,
      fun did mem _ => mem, fun n marked => .inl marked, closed_afterChunk closed, ?_⟩
    intro n dids _ owes' did h _ _ before
    obtain ⟨rfl, holds⟩ := owes_afterChunk closed owes'
    apply holds
    have added := (saddCollection_unindexed h).2 rfl
    rcases List.mem_append.mp (before _ rfl) with mem | mem
    · exact .inl mem
    · exact .inr ((List.mem_append.mp mem).elim (fun m => absurd m added) id)
  | backfillMark nsid =>
    cases next
    refine ⟨fun n _ did h => ⟨h, by simp [Worker.leaves]⟩, fun did mem _ => mem,
      fun n marked => ?_, trivial, fun n dids _ h => ?_⟩
    · by_cases same : n = nsid
      · exact .inr (by rw [same])
      · exact .inl (by simpa [Redis.markComplete, same] using marked)
    · cases h
  | loadPrune nsid members results =>
    cases next
    refine ⟨fun n _ did h => ⟨sremCollection_unindexed stale h, by simp [Worker.leaves]⟩,
      fun did mem _ => mem, fun n marked => .inl marked, by simp, fun n dids _ h => ?_⟩
    simp at h

theorem owes_leave
    (h : owes (w.leave d) = some (nsid, dids)) :
    ∃ before, owes w = some (nsid, before) ∧ ∀ did, did ≠ d → did ∈ before → did ∈ dids := by
  unfold Worker.leave at h
  split at h
  case h_4 => exact ⟨dids, h, fun _ _ mem => mem⟩
  all_goals
    simp only [owes, Option.some.injEq, Prod.mk.injEq] at h
    obtain ⟨rfl, rfl⟩ := h
    refine ⟨_, rfl, fun did other mem => ?_⟩
    simp only [List.mem_append, mem_srem] at mem ⊢
    grind

theorem closed_leave (closed : Closed w) : Closed (w.leave d) := by
  unfold Worker.leave
  split <;> simp_all [Closed, srem]

theorem step_complete {t : System} (h : Complete s) {e : Event} (stale : PrunesStale s e)
    (next : step s e = some t) : Complete t := by
  cases e with
  | call i call =>
    simp only [step] at next
    split at next
    · cases next
      have quiet : Closed call.start ∧ owes call.start = none := by cases call <;> exact ⟨trivial, rfl⟩
      refine ⟨h.marked, h.listed, fun j => ?_, fun j nsid dids named owes' => ?_⟩
      · by_cases own : j = i
        · subst own
          simpa using quiet.1
        · simpa [own] using h.closed j
      · by_cases own : j = i
        · subst own
          simp [quiet.2] at owes'
        · exact h.owed j nsid dids named (by simpa [own] using owes')
    · cases next
  | advance i page =>
    simp only [step, Option.map_eq_some_iff] at next
    obtain ⟨⟨r', w'⟩, advanced, rfl⟩ := next
    have keeps := advance_keeps stale (h.closed i) advanced
    refine ⟨fun nsid named marked did un => ?_, fun nsid named did un => ?_, fun j => ?_,
      fun j nsid dids named owes' did un => ?_⟩
    · obtain ⟨before, _⟩ := keeps.unindexed nsid named did un
      rcases keeps.complete nsid marked with old | marking
      · exact h.marked nsid named old did before
      · -- the marker is written when nothing is owed any more
        have := h.owed i nsid [] named (by rw [marking]; rfl) did before
        simp at this
    · obtain ⟨before, stays⟩ := keeps.unindexed nsid named did un
      obtain ⟨mem, nonempty⟩ := h.listed nsid named did before
      exact ⟨keeps.repos did mem stays, nonempty⟩
    · by_cases own : j = i
      · subst own
        simpa using keeps.closed
      · simp only [Function.update_of_ne own]
        split
        · exact closed_leave (h.closed j)
        · exact h.closed j
    · obtain ⟨before, stays⟩ := keeps.unindexed nsid named did un
      by_cases own : j = i
      · subst own
        obtain ⟨mem, nonempty⟩ := h.listed nsid named did before
        exact keeps.owed nsid dids named (by simpa using owes') did un mem nonempty
          (fun old owesOld => h.owed j nsid old named owesOld did before)
      · simp only [Function.update_of_ne own] at owes'
        split at owes'
        next d leaves =>
          obtain ⟨old, owesOld, holds⟩ := owes_leave owes'
          refine holds did (fun same => stays (same ▸ leaves)) (h.owed j nsid old named owesOld did before)
        next => exact h.owed j nsid dids named owes' did before

theorem matchingStates_append (xs ys : List Did) :
    matchingStates nsid (r.mget xs) ++ matchingStates nsid (r.mget ys) =
      matchingStates nsid (r.mget (xs ++ ys)) := by
  simp [matchingStates, Redis.mget]

theorem runLabels_advance {i : Nat} {page : ScanPage}
    (stays : (s.workers i).leaves = none) (next : (s.workers i).advance s.redis page = some (r, w))
    (labels : List Event) :
    runLabels step s (.advance i page :: labels) =
      runLabels step ⟨r, Function.update s.workers i w⟩ labels := by
  simp [runLabels, step, next, stays]

theorem prune_finishes (i : Nat) (page : ScanPage) (nsid : Nsid) (results : List RepositoryState) :
    ∀ (n : Nat) (s : System) (stale : List Did), stale.length ≤ n →
      s.workers i = afterLoad nsid [] results stale →
      ∃ k t, runLabels step s (List.replicate k (.advance i page)) = some t ∧
        t.workers i = .loaded nsid results
  | n, s, [], _, at_ => ⟨0, s, rfl, at_⟩
  | 0, s, _ :: _, bound, _ => by simp at bound
  | n + 1, s, first :: rest, bound, at_ => by
    have shorter : ((first :: rest).drop repoMgetBatch).length ≤ n := by
      simp only [List.length_drop, List.length_cons, repoMgetBatch] at bound ⊢
      omega
    obtain ⟨k, t, run, done⟩ := prune_finishes i page nsid results n
      ⟨s.redis.sremCollection nsid ((first :: rest).take repoMgetBatch),
        Function.update s.workers i (afterLoad nsid [] results ((first :: rest).drop repoMgetBatch))⟩
      _ shorter (by simp)
    refine ⟨k + 1, t, ?_, done⟩
    rw [List.replicate_succ, runLabels_advance (by rw [at_]; rfl) (by rw [at_]; rfl)]
    exact run

theorem load_finishes (i : Nat) (page : ScanPage) (nsid : Nsid) :
    ∀ (n : Nat) (s : System) (members : List Did) (results : List RepositoryState)
      (stale : List Did), members.length ≤ n →
      s.workers i = afterLoad nsid members results stale →
      ∃ k t, runLabels step s (List.replicate k (.advance i page)) = some t ∧
        t.workers i = .loaded nsid (results ++ matchingStates nsid (s.redis.mget members))
  | n, s, [], results, stale, _, at_ => by
    simpa [matchingStates, Redis.mget] using
      prune_finishes i page nsid results stale.length s stale (Nat.le_refl _) at_
  | 0, s, _ :: _, _, _, bound, _ => by simp at bound
  | n + 1, s, first :: rest, results, stale, bound, at_ => by
    let batch := s.redis.mget ((first :: rest).take repoMgetBatch)
    have shorter : ((first :: rest).drop repoMgetBatch).length ≤ n := by
      simp only [List.length_drop, List.length_cons, repoMgetBatch] at bound ⊢
      omega
    obtain ⟨k, t, run, done⟩ := load_finishes i page nsid n
      ⟨s.redis, Function.update s.workers i (afterLoad nsid ((first :: rest).drop repoMgetBatch)
        (results ++ matchingStates nsid batch) (stale ++ staleDids nsid batch))⟩
      _ (results ++ matchingStates nsid batch) (stale ++ staleDids nsid batch) shorter (by simp)
    refine ⟨k + 1, t, ?_, ?_⟩
    · rw [List.replicate_succ, runLabels_advance (by rw [at_]; rfl) (by rw [at_]; rfl)]
      exact run
    · rw [done, List.append_assoc, matchingStates_append, List.take_append_drop]

theorem getByCollection_alone {i : Nat} (page : ScanPage)
    (free : (s.workers i).free = true) (marked : s.redis.complete nsid = true) :
    ∃ k t, runLabels step s (.call i (.getByCollection nsid) ::
        List.replicate k (.advance i page)) = some t ∧
      t.workers i = .loaded nsid
        (matchingStates nsid (s.redis.mget (s.redis.collection nsid))) := by
  let started : System := { s with workers := Function.update s.workers i (.collectionGet nsid) }
  let checked : System := { s with workers := Function.update s.workers i (.loadMembers nsid) }
  let loading : System :=
    { s with workers := Function.update s.workers i (afterLoad nsid (s.redis.collection nsid) [] []) }
  obtain ⟨k, t, run, done⟩ := load_finishes i page nsid _ loading (s.redis.collection nsid) [] []
    (Nat.le_refl _) (by simp [loading])
  refine ⟨k + 2, t, ?_, by simpa [loading] using done⟩
  have call : step s (.call i (.getByCollection nsid)) = some started := by
    simp [step, free, started, Call.start]
  have get : (started.workers i).advance started.redis page = some (s.redis, .loadMembers nsid) := by
    simp [started, Worker.advance, marked]
  have members : (checked.workers i).advance checked.redis page =
      some (s.redis, afterLoad nsid (s.redis.collection nsid) [] []) := by
    simp [checked, Worker.advance]
  calc runLabels step s (.call i (.getByCollection nsid) :: List.replicate (k + 2) (.advance i page))
      = runLabels step started (List.replicate (k + 2) (.advance i page)) := by
        rw [runLabels, call, Option.bind_some]
    _ = runLabels step checked (List.replicate (k + 1) (.advance i page)) := by
        rw [List.replicate_succ, runLabels_advance (by simp [started, Worker.leaves]) get]
        simp [started, checked]
    _ = runLabels step loading (List.replicate k (.advance i page)) := by
        rw [List.replicate_succ, runLabels_advance (by simp [checked, Worker.leaves]) members]
        simp [checked, loading]
    _ = some t := run

/-- In every run that removes no live member, a marked NSID has every DID whose
state lists it in its index, and a read that then runs alone returns exactly the
stored states that list it. -/
theorem index_complete (s₀ s : System) (fresh : Fresh s₀)
    (run : Reaches (ofFunction step) PrunesStale s₀ s) (nsid : Nsid) (named : nsid ≠ "")
    (marked : s.redis.complete nsid = true) :
    (∀ did, Lists s.redis nsid did → did ∈ s.redis.collection nsid) ∧
    ∀ (i : Nat) (page : ScanPage), (s.workers i).free = true →
      ∃ k t results, runLabels step s (.call i (.getByCollection nsid) ::
          List.replicate k (.advance i page)) = some t ∧
        t.workers i = .loaded nsid results ∧
        ∀ state, state ∈ results ↔
          ∃ did, s.redis.repo did = some state ∧ lists state nsid = true := by
  have complete : Complete s :=
    run.invariant (fun _ _ _ h stale next => step_complete h stale next) (fresh_complete fresh)
  have indexed : ∀ did, Lists s.redis nsid did → did ∈ s.redis.collection nsid := by
    intro did listed
    by_cases present : did ∈ s.redis.collection nsid
    · exact present
    · exact absurd ⟨listed, present⟩ (complete.marked nsid named marked did)
  refine ⟨indexed, fun i page free => ?_⟩
  obtain ⟨k, t, alone, done⟩ := getByCollection_alone page free marked
  refine ⟨k, t, _, alone, done, fun state => ?_⟩
  rw [mem_matchingStates]
  constructor
  · rintro ⟨did, _, stored, listed⟩
    exact ⟨did, stored, listed⟩
  · rintro ⟨did, stored, listed⟩
    exact ⟨did, indexed did ⟨state, stored, listed⟩, stored, listed⟩

def sampleState (nsids : List Nsid) : RepositoryState :=
  ⟨"did:plc:a", none, "0", [], nsids.map fun nsid => ⟨nsid, 1, none, "t"⟩, nsids.length, 0,
    .active, "t", "t", "t", "t"⟩

def legacy : System :=
  ⟨⟨fun did => if did = "did:plc:a" then some (sampleState ["app.bsky.feed.post"]) else none,
    ["did:plc:a"], fun _ => [], fun _ => false⟩, fun _ => .idle⟩

theorem legacy_fresh : Fresh legacy where
  listed did state stored := by
    simp only [legacy, Option.ite_none_right_eq_some] at stored
    simp [legacy, stored.1]
  named did mem := by
    simp only [legacy, List.mem_singleton] at mem
    simp [mem]
  unmarked _ := rfl
  quiet _ := rfl

def backfillRun : List Event :=
  [.call 0 (.getByCollection "app.bsky.feed.post"), .advance 0 ⟨[], false⟩,
    .advance 0 ⟨["did:plc:a"], true⟩, .advance 0 ⟨[], false⟩, .advance 0 ⟨[], false⟩,
    .advance 0 ⟨[], false⟩]

def staleRun : List Event :=
  backfillRun ++ [.advance 0 ⟨[], false⟩,
    .call 1 (.update (sampleState [])), .advance 1 ⟨[], false⟩, .advance 1 ⟨[], false⟩,
    .advance 0 ⟨[], false⟩, .advance 0 ⟨[], false⟩]

theorem index_complete_pruned :
    ∃ t, runGuarded step PrunesStale legacy staleRun = some t ∧
      ∀ did, Lists t.redis "app.bsky.feed.post" did →
        did ∈ t.redis.collection "app.bsky.feed.post" := by
  have final : (runGuarded step PrunesStale legacy staleRun).map
      (·.redis.complete "app.bsky.feed.post") = some true := by decide
  obtain ⟨t, run, marked⟩ := Option.map_eq_some_iff.mp final
  exact ⟨t, run, (index_complete legacy t legacy_fresh (reaches_of_runGuarded staleRun legacy t run)
    _ (by decide) marked).1⟩

/-- A read sees the DID without posts, an update gives it posts, then the read
prunes it. -/
def prunedRun : List Event :=
  backfillRun ++ [.advance 0 ⟨[], false⟩,
    .call 1 (.update (sampleState [])), .advance 1 ⟨[], false⟩, .advance 1 ⟨[], false⟩,
    .advance 0 ⟨[], false⟩,
    .call 1 (.update (sampleState ["app.bsky.feed.post"])), .advance 1 ⟨[], false⟩,
    .advance 1 ⟨[], false⟩,
    .advance 0 ⟨[], false⟩]

/-- The removal of a member that was stale when it was read leaves a marked index
without a DID whose state lists the NSID. -/
theorem index_incomplete :
    ¬ ∀ (s₀ s : System), Fresh s₀ → Reaches (ofFunction step) always s₀ s →
      ∀ nsid, nsid ≠ "" → s.redis.complete nsid = true →
        ∀ did, Lists s.redis nsid did → did ∈ s.redis.collection nsid := by
  intro claimed
  have final : (runLabels step legacy prunedRun).map
      (fun t => (t.redis.complete "app.bsky.feed.post", t.redis.collection "app.bsky.feed.post",
        t.redis.repo "did:plc:a")) =
      some (true, [], some (sampleState ["app.bsky.feed.post"])) := by decide
  obtain ⟨t, run, values⟩ := Option.map_eq_some_iff.mp final
  simp only [Prod.mk.injEq] at values
  obtain ⟨marked, pruned, stored⟩ := values
  have held := claimed legacy t legacy_fresh (reaches_of_runLabels prunedRun legacy t run)
    "app.bsky.feed.post" (by decide) marked "did:plc:a" ⟨_, stored, by decide⟩
  rw [pruned] at held
  cases held

end MastopodFederation.Guarantees.RegistryIndex
