import MastopodFederation.Guarantees.OAuthRequests

/-!
# What a family revocation leaves behind

A revocation scans the set of a family and rewrites the tokens it finds. It misses a token
that joins the family after the scan began; no step makes a revoked token live again.
-/
namespace MastopodFederation.Guarantees.FamilyRevocation
open Lib.GuardedRun Lib.WorkerPool Lib.PoolRuns Lib.RecordStore
open Source.OAuthAuthorizationServer OAuthRequests

def Live (s : Store) (familyId tokenId : String) : Prop :=
  ∃ record, find (·.refreshTokenId) s.refresh tokenId = some record ∧
    record.familyId = familyId ∧ record.isRevoked = false

/-- No token joins a family once its revocation began, and the set of a family does not expire
before its tokens. -/
def Sealed (pool : Pool Store Request Call Reply OAuthError Unit) :
    Label Request Expiry Call Reply OAuthError Unit → Prop
  | .call i =>
    match pool.workers i with
    | some ⟨_, .call (.refreshPut record _) _⟩ => record.familyId ∉ pool.shared.revoking
    | _ => True
  | .act (.family familyId) =>
    ∀ record ∈ pool.shared.refresh, record.familyId = familyId → record.isRevoked = true
  | _ => True

instance (pool : Pool Store Request Call Reply OAuthError Unit)
    (label : Label Request Expiry Call Reply OAuthError Unit) :
    Decidable (Sealed pool label) := by
  unfold Sealed
  split
  · split <;> infer_instance
  · infer_instance
  · infer_instance

/-- Sets hold the live tokens of their families, a revocation under way knows those it has yet
to revoke, and a finished one left none. -/
structure Revoking (s : Store) (duties : Nat → Option (Request × Duty)) : Prop where
  listed : ∀ familyId tokenId, Live s familyId tokenId → tokenId ∈ s.members familyId
  pending : ∀ i request u, duties i = some (request, u) → ∀ familyId left,
    u.pending = some (familyId, left) → familyId ∈ s.revoking ∧
      ∀ tokenId, Live s familyId tokenId → tokenId ∈ left
  finished : ∀ familyId ∈ s.revokedFamilies, familyId ∈ s.revoking ∧
    ∀ tokenId, ¬Live s familyId tokenId

section Revoking
variable {s t : Store} {u v : Duty} {request : Request} {i : Nat} {familyId tokenId : String}
  {duties : Nat → Option (Request × Duty)} {record : RefreshTokenRecord}

theorem live_setRefresh (revoked : record.isRevoked = true)
    (live : Live (s.setRefresh record) familyId tokenId) :
    Live s familyId tokenId ∧ tokenId ≠ record.refreshTokenId := by
  obtain ⟨found, there, own, unrevoked⟩ := live
  simp only [Store.setRefresh, find_put] at there
  split at there
  next =>
    cases there
    rw [revoked] at unrevoked
    cases unrevoked
  next other => exact ⟨⟨found, there, own, unrevoked⟩, other⟩

theorem live_setAll : ∀ {writes : List (RefreshTokenRecord × Nat)} {s : Store},
    (∀ write ∈ writes, write.1.isRevoked = true) → Live (s.setAll writes) familyId tokenId →
    Live s familyId tokenId ∧ tokenId ∉ writes.map (·.1.refreshTokenId)
  | [], s, _, live => ⟨live, List.not_mem_nil⟩
  | write :: writes, s, revoked, live => by
    obtain ⟨before, unwritten⟩ := live_setAll (s := s.setRefresh write.1)
      (fun other listed => revoked other (List.mem_cons_of_mem _ listed)) live
    obtain ⟨first, other⟩ := live_setRefresh (revoked write List.mem_cons_self) before
    refine ⟨first, fun listed => ?_⟩
    rcases List.mem_cons.mp listed with same | later
    · exact other same
    · exact unwritten later

theorem Revoking.settle (revoking : Revoking s duties)
    (live : ∀ familyId tokenId, Live t familyId tokenId → Live s familyId tokenId)
    (families : t.families = s.families) (begun : ∀ f ∈ s.revoking, f ∈ t.revoking)
    (done : t.revokedFamilies = s.revokedFamilies) {duty : Option (Request × Duty)}
    (pending : ∀ request u, duty = some (request, u) → ∀ familyId left,
      u.pending = some (familyId, left) → familyId ∈ t.revoking ∧
        ∀ tokenId, Live t familyId tokenId → tokenId ∈ left) :
    Revoking t (setDuty duties i duty) where
  listed familyId tokenId there := by
    have member := revoking.listed familyId tokenId (live _ _ there)
    unfold Store.members at member ⊢
    rw [families]
    exact member
  pending j request u held familyId left mine := by
    rcases setDuty_some held with ⟨-, here⟩ | ⟨-, before⟩
    · exact pending request u here familyId left mine
    · obtain ⟨started, covers⟩ := revoking.pending j request u before familyId left mine
      exact ⟨begun _ started, fun tokenId there => covers tokenId (live _ _ there)⟩
  finished familyId ended := by
    rw [done] at ended
    obtain ⟨started, none⟩ := revoking.finished familyId ended
    exact ⟨begun _ started, fun tokenId there => none tokenId (live _ _ there)⟩

theorem Revoking.narrow (revoking : Revoking s duties) (duty : duties i = some (request, u))
    (live : ∀ familyId tokenId, Live t familyId tokenId → Live s familyId tokenId)
    (families : t.families = s.families) (begun : t.revoking = s.revoking)
    (done : t.revokedFamilies = s.revokedFamilies)
    (pending : ∀ familyId left, v.pending = some (familyId, left) →
      ∃ before, u.pending = some (familyId, before) ∧
        ∀ tokenId ∈ before, Live t familyId tokenId → tokenId ∈ left) :
    Revoking t (setDuty duties i (some (request, v))) := by
  have same : ∀ f ∈ s.revoking, f ∈ t.revoking := by
    rw [begun]
    exact fun _ started => started
  apply revoking.settle live families same done
  intro _ _ here familyId left mine
  cases here
  obtain ⟨before, earlier, kept⟩ := pending familyId left mine
  obtain ⟨started, covers⟩ := revoking.pending i request u duty familyId before earlier
  exact ⟨same _ started, fun tokenId there =>
    kept tokenId (covers tokenId (live _ _ there)) there⟩

theorem Revoking.keep (revoking : Revoking s duties) (duty : duties i = some (request, u))
    (live : ∀ familyId tokenId, Live t familyId tokenId → Live s familyId tokenId)
    (families : t.families = s.families) (begun : t.revoking = s.revoking)
    (done : t.revokedFamilies = s.revokedFamilies) (pending : v.pending = u.pending) :
    Revoking t (setDuty duties i (some (request, v))) :=
  revoking.narrow duty live families begun done fun _ left mine =>
    ⟨left, pending ▸ mine, fun _ listed _ => listed⟩

theorem pending_of_settled {done : String → Bool} {left : List String}
    (mine : (u.settled done).pending = some (familyId, left)) :
    ∃ before, u.pending = some (familyId, before) ∧ left = before.filter (!done ·) := by
  obtain ⟨pending, before, same⟩ := Option.map_eq_some_iff.mp mine
  cases same
  exact ⟨pending.2, before, rfl⟩

theorem Revoking.put (revoking : Revoking s duties) (duty : duties i = some (request, u))
    (unrevoked : record.familyId ∉ s.revoking) : Revoking { s.setRefresh record with
        families := (record.familyId, record.refreshTokenId) :: s.families
        issued := record.refreshTokenId :: s.issued }
      (setDuty duties i (some (request, u.stored))) := by
  have live : ∀ familyId tokenId, Live (s.setRefresh record) familyId tokenId →
      (familyId = record.familyId ∧ tokenId = record.refreshTokenId) ∨
        Live s familyId tokenId := by
    rintro familyId tokenId ⟨found, there, own, unrevoked⟩
    simp only [Store.setRefresh, find_put] at there
    split at there
    next same =>
      cases there
      exact .inl ⟨own.symm, same⟩
    next => exact .inr ⟨found, there, own, unrevoked⟩
  have old : ∀ familyId ∈ s.revoking, ∀ tokenId, Live (s.setRefresh record) familyId tokenId →
      Live s familyId tokenId := by
    intro familyId started tokenId there
    rcases live familyId tokenId there with ⟨rfl, -⟩ | before
    · exact absurd started unrevoked
    · exact before
  constructor
  · intro familyId tokenId there
    rcases live familyId tokenId there with ⟨rfl, rfl⟩ | before
    · simp [Store.members]
    · have member := revoking.listed familyId tokenId before
      obtain ⟨pair, paired, same⟩ := List.mem_map.mp member
      exact List.mem_map.mpr ⟨pair, List.mem_filter.mpr ⟨List.mem_cons_of_mem _
        (List.mem_filter.mp paired).1, (List.mem_filter.mp paired).2⟩, same⟩
  · intro j request' u' held familyId left mine
    have before : ∃ w, duties j = some (request', w) ∧ w.pending = some (familyId, left) := by
      rcases setDuty_some held with ⟨rfl, ⟨⟩⟩ | ⟨-, before⟩
      · exact ⟨u, duty, mine⟩
      · exact ⟨u', before, mine⟩
    obtain ⟨w, earlier, same⟩ := before
    obtain ⟨started, covers⟩ := revoking.pending j request' w earlier familyId left same
    exact ⟨started, fun tokenId there => covers tokenId (old familyId started tokenId there)⟩
  · intro familyId ended
    obtain ⟨started, none⟩ := revoking.finished familyId ended
    exact ⟨started, fun tokenId there => none tokenId (old familyId started tokenId there)⟩

theorem Revoking.scan (revoking : Revoking s duties) (duty : duties i = some (request, u))
    {cursor : Cursor} {page : Cursor × List String}
    (known : ∀ owed, cursor = some owed →
      ∃ pending, u.pending = some (familyId, pending) ∧ ∀ id ∈ pending, id ∈ owed)
    (next : match page.1 with
      | none => s.owed familyId cursor page.2 = []
      | some left => left = s.owed familyId cursor page.2) :
    Revoking (s.beginRevoking familyId cursor) (setDuty duties i
      (some (request, { u with pending := some (familyId, page.1.getD [] ++ page.2) }))) := by
  have same : ∀ f tokenId, Live (s.beginRevoking familyId cursor) f tokenId →
      Live s f tokenId := by
    intro f tokenId there
    unfold Store.beginRevoking at there
    split at there <;> exact there
  have begun : ∀ f ∈ s.revoking, f ∈ (s.beginRevoking familyId cursor).revoking := by
    intro f started
    unfold Store.beginRevoking
    split
    · exact List.mem_cons_of_mem _ started
    · exact started
  have families : (s.beginRevoking familyId cursor).families = s.families := by
    unfold Store.beginRevoking
    split <;> rfl
  have done : (s.beginRevoking familyId cursor).revokedFamilies = s.revokedFamilies := by
    unfold Store.beginRevoking
    split <;> rfl
  apply revoking.settle same families begun done
  intro _ _ here other left mine
  cases here
  cases mine
  have started : familyId ∈ (s.beginRevoking familyId cursor).revoking := by
    cases cursor with
    | none =>
      rw [Store.beginRevoking, if_pos rfl]
      exact List.mem_cons_self
    | some owed =>
      obtain ⟨pending, mine, -⟩ := known owed rfl
      exact begun _ (revoking.pending i request u duty familyId pending mine).1
  refine ⟨started, fun tokenId there => ?_⟩
  have live := same _ _ there
  have member := revoking.listed familyId tokenId live
  have remaining : tokenId ∈ cursor.getD (s.members familyId) := by
    cases cursor with
    | none => exact member
    | some owed =>
      obtain ⟨pending, mine, among⟩ := known owed rfl
      exact among _ ((revoking.pending i request u duty familyId pending mine).2 tokenId live)
  by_cases paged : tokenId ∈ page.2
  · exact List.mem_append_right _ paged
  · have owed : tokenId ∈ s.owed familyId cursor page.2 :=
      List.mem_filter.mpr ⟨remaining, decide_eq_true ⟨member, paged⟩⟩
    apply List.mem_append_left
    split at next
    next =>
      rw [next] at owed
      nomatch owed
    next left found =>
      rw [found, next]
      exact owed

end Revoking

variable {s : Store} {tokenId : String}

theorem live_expire {expiry : Expiry} {familyId : String}
    (live : Live (s.expire expiry) familyId tokenId) : Live s familyId tokenId := by
  cases expiry with
  | refresh gone =>
    obtain ⟨record, found, own, unrevoked⟩ := live
    have kept : find (·.refreshTokenId) (erase (·.refreshTokenId) s.refresh gone) tokenId =
        some record := found
    rw [find_erase] at kept
    split at kept
    · cases kept
    · exact ⟨record, kept, own, unrevoked⟩
  | _ => exact live

theorem Revoking.expired {duties : Nat → Option (Request × Duty)}
    (revoking : Revoking s duties) {expiry : Expiry}
    (spared : ∀ familyId, expiry = .family familyId → ∀ tokenId, ¬Live s familyId tokenId) :
    Revoking (s.expire expiry) duties := by
  have begun : (s.expire expiry).revoking = s.revoking := by cases expiry <;> rfl
  have done : (s.expire expiry).revokedFamilies = s.revokedFamilies := by cases expiry <;> rfl
  constructor
  · intro familyId tokenId there
    have live := live_expire there
    have member := revoking.listed familyId tokenId live
    cases expiry with
    | family gone =>
      have other : familyId ≠ gone := fun same => spared gone rfl tokenId (same ▸ live)
      obtain ⟨pair, paired, same⟩ := List.mem_map.mp member
      obtain ⟨listed, own⟩ := List.mem_filter.mp paired
      refine List.mem_map.mpr ⟨pair, List.mem_filter.mpr ⟨List.mem_filter.mpr ⟨listed, ?_⟩, own⟩, same⟩
      rw [decide_eq_true_eq] at own ⊢
      rw [own]
      exact other
    | _ => exact member
  · intro i request u duty familyId left mine
    obtain ⟨started, covers⟩ := revoking.pending i request u duty familyId left mine
    rw [begun]
    exact ⟨started, fun tokenId there => covers tokenId (live_expire there)⟩
  · intro familyId ended
    rw [done] at ended
    obtain ⟨started, none⟩ := revoking.finished familyId ended
    rw [begun]
    exact ⟨started, fun tokenId there => none tokenId (live_expire there)⟩

theorem take_families {request : Request} {k : Credential} :
    (s.take request k).families = s.families ∧ (s.take request k).revoking = s.revoking ∧
      (s.take request k).revokedFamilies = s.revokedFamilies ∧
      (s.take request k).refresh = s.refresh := by
  unfold Store.take
  split <;> exact ⟨rfl, rfl, rfl, rfl⟩

theorem setAll_families : ∀ (writes : List (RefreshTokenRecord × Nat)) (s : Store),
    (s.setAll writes).families = s.families ∧ (s.setAll writes).revoking = s.revoking ∧
      (s.setAll writes).revokedFamilies = s.revokedFamilies
  | [], _ => ⟨rfl, rfl, rfl⟩
  | write :: writes, s => setAll_families writes (s.setRefresh write.1)

theorem live_of_refresh {t : Store} {familyId : String} (same : t.refresh = s.refresh)
    (live : Live t familyId tokenId) : Live s familyId tokenId := by
  unfold Live at live ⊢
  rw [← same]
  exact live

section Calls
variable {s t : Store} {u v : Duty} {request : Request} {i : Nat} {c : Call}
  {duties : Nat → Option (Request × Duty)}

theorem Revoking.take (revoking : Revoking s duties) (duty : duties i = some (request, u))
    {k : Credential} {r : Store} (refresh : r.refresh = s.refresh)
    (families : r.families = s.families) (begun : r.revoking = s.revoking)
    (done : r.revokedFamilies = s.revokedFamilies) :
    Revoking (r.take request k) (setDuty duties i (some (request, u.claiming k))) :=
  revoking.keep duty (fun _ _ live => live_of_refresh (take_families.2.2.2.trans refresh) live)
    (take_families.1.trans families) (take_families.2.1.trans begun)
    (take_families.2.2.1.trans done) (u.claiming_pending k)

theorem Revoking.call {reply : Reply c} (revoking : Revoking s duties)
    (duty : duties i = some (request, u)) (allowed : requestMonitor.allows u c)
    (performed : Store.Effect request c s reply t)
    (sealed : ∀ record ttl, c = .refreshPut record ttl → record.familyId ∉ s.revoking) :
    Revoking t (setDuty duties i (some (request, requestMonitor.after u c reply))) := by
  cases c with
  | refreshPut record ttl =>
    cases performed
    exact revoking.put duty (sealed record ttl rfl)
  | parDel | codeDel | challengeDel =>
    cases performed
    exact revoking.take duty rfl rfl rfl rfl
  | revokeGet tokenId =>
    obtain ⟨answer, changed⟩ := performed
    cases reply with
    | none =>
      rw [if_pos (by rfl)] at changed
      rw [changed]
      exact revoking.take duty rfl rfl rfl rfl
    | some current =>
      rw [if_neg (by exact Bool.false_ne_true)] at changed
      rw [changed]
      exact revoking.keep duty (fun _ _ live => live) rfl rfl rfl rfl
  | refreshSet record ttl =>
    cases performed
    have live : ∀ familyId tokenId, Live ((s.setRefresh record).take request
        (.refresh record.refreshTokenId)) familyId tokenId → Live s familyId tokenId :=
      fun _ _ there => (live_setRefresh allowed.2 (live_of_refresh take_families.2.2.2 there)).1
    exact revoking.keep duty live take_families.1 take_families.2.1 take_families.2.2.1
      (u.claiming_pending _)
  | refreshSetAll writes =>
    cases performed
    have revoked : ∀ write ∈ writes, write.1.isRevoked = true :=
      fun write listed => (allowed write listed).2
    obtain ⟨families, begun, done⟩ := setAll_families writes s
    apply revoking.narrow duty (fun _ _ there => (live_setAll revoked there).1) families begun done
    intro familyId left mine
    obtain ⟨before, earlier, rfl⟩ := pending_of_settled mine
    refine ⟨before, earlier, fun tokenId listed there => List.mem_filter.mpr ⟨listed, ?_⟩⟩
    have unwritten := (live_setAll revoked there).2
    simpa using unwritten
  | refreshMget tokenIds =>
    obtain ⟨answer, rfl⟩ := performed
    apply revoking.narrow duty (fun _ _ there => there) rfl rfl rfl
    intro familyId left mine
    obtain ⟨before, earlier, rfl⟩ := pending_of_settled mine
    refine ⟨before, earlier, fun tokenId listed there => List.mem_filter.mpr ⟨listed, ?_⟩⟩
    obtain ⟨record, stored, -⟩ := there
    have found : tokenId ∈ tokenIds → reply tokenId ≠ none := by
      intro asked absent
      rw [answer tokenId asked] at absent
      rw [find_of_lookup_none absent] at stored
      nomatch stored
    simpa [imp_iff_not_or] using found
  | familyScan familyId cursor =>
    obtain ⟨-, next, rfl⟩ := performed
    exact revoking.scan duty allowed next
  | familyRevoked familyId =>
    cases performed
    obtain ⟨started, covers⟩ := revoking.pending i request u duty familyId [] allowed
    have kept : Revoking s (setDuty duties i (some (request, u))) :=
      revoking.keep duty (fun _ _ live => live) rfl rfl rfl rfl
    refine ⟨kept.listed, kept.pending, fun other ended => ?_⟩
    rcases List.mem_cons.mp ended with rfl | before
    · exact ⟨started, fun tokenId there => nomatch covers tokenId there⟩
    · exact revoking.finished other before
  | parGet | codeGet | challengeGet | refreshGet =>
    obtain ⟨rfl, rfl⟩ := performed
    apply revoking.keep duty (fun _ _ live => live) rfl rfl rfl
    unfold requestMonitor
    dsimp only
    split <;> rfl
  | randomUUID =>
    obtain ⟨-, rfl⟩ := performed
    exact revoking.keep duty (fun _ _ live => live) rfl rfl rfl rfl
  | _ =>
    cases performed
    exact revoking.keep duty (fun _ _ live => live) rfl rfl rfl rfl

end Calls

theorem revoking_preserved (rt : Runtime) (cfg : Config) :
    PreservesAt (oauthSystem rt cfg) Sealed requestMonitor (fun _ => True) Revoking where
  call pool duties i request u c next reply t admitted revoking running duty allowed performed := by
    apply revoking.call duty allowed performed
    rintro record ttl rfl
    have shut : Sealed pool (.call i) := admitted
    simpa only [Sealed, running] using shut
  stop pool duties i _ revoking _ :=
    revoking.settle (fun _ _ live => live) rfl (fun _ started => started) rfl
      fun _ _ none => nomatch none
  start pool duties i worker _ revoking _ starts := by
    refine ⟨Duty.start worker.tag.consumes, ?_, ?_⟩
    · rw [(starts : worker.program = _)]
      exact handle_obeys rt cfg worker.tag
    · apply revoking.settle (fun _ _ live => live) rfl (fun _ started => started) rfl
      intro _ _ here _ _ mine
      cases here
      nomatch mine
  act pool duties expiry after admitted revoking acted := by
    cases (acted : after = _)
    apply revoking.expired
    rintro familyId rfl tokenId ⟨record, found, own, unrevoked⟩
    have spared : ∀ record ∈ pool.shared.refresh, record.familyId = familyId →
        record.isRevoked = true := admitted
    have revoked := spared record (List.mem_of_find?_eq_some found) own
    rw [revoked] at unrevoked
    nomatch unrevoked

theorem revoked_for_good {rt : Runtime} {cfg : Config}
    {guard : Pool Store Request Call Reply OAuthError Unit →
      Label Request Expiry Call Reply OAuthError Unit → Prop}
    {pool after : Pool Store Request Call Reply OAuthError Unit}
    (run : Reaches (Step (oauthSystem rt cfg)) guard (Pool.idle Store.empty) pool)
    (later : Reaches (Step (oauthSystem rt cfg)) guard pool after) {record : RefreshTokenRecord}
    (stored : find (·.refreshTokenId) pool.shared.refresh tokenId = some record)
    (revoked : record.isRevoked = true) : Spent after.shared (.refresh tokenId) := by
  have minted : Preserves (oauthSystem rt cfg) guard requestMonitor Minted := {
    call := fun s duties i request u c reply t minted duty allowed performed =>
      minted.call duty allowed performed
    stop := fun s duties i minted => minted.dropped
    start := fun p duties i worker _ minted _ starts => by
      refine ⟨Duty.start worker.tag.consumes, ?_, minted.started⟩
      rw [(starts : worker.program = _)]
      exact handle_obeys rt cfg worker.tag
    act := fun p duties expiry after _ minted acted => by
      cases (acted : after = _)
      exact minted.expired expiry }
  have spends : Preserves (oauthSystem rt cfg) guard requestMonitor
      fun s duties => Minted s duties ∧ Spent s (.refresh tokenId) := {
    call := fun s duties i request u c reply t kept duty allowed performed =>
      ⟨kept.1.call duty allowed performed, kept.1.spent duty allowed performed kept.2⟩
    stop := fun s duties i kept => ⟨kept.1.dropped, kept.2⟩
    start := fun p duties i worker admitted kept idle starts => by
      obtain ⟨u, obeys, started⟩ := minted.start p duties i worker admitted kept.1 idle starts
      exact ⟨u, obeys, started, kept.2⟩
    act := fun p duties expiry after _ kept acted => by
      cases (acted : after = _)
      exact ⟨kept.1.expired expiry, kept.2.expired expiry⟩ }
  obtain ⟨duties, kept, obeyed⟩ := watched_run minted run (watched_idle minted_empty)
  have spent : Spent pool.shared (.refresh tokenId) := by
    constructor
    · exact kept.stored (.refresh tokenId) (Option.isSome_iff_exists.mpr ⟨record, stored⟩)
    · rintro ⟨other, found, unrevoked⟩
      rw [stored] at found
      cases found
      rw [revoked] at unrevoked
      nomatch unrevoked
  have watched : Watched requestMonitor
      (fun s duties => Minted s duties ∧ Spent s (.refresh tokenId)) pool :=
    ⟨duties, ⟨kept, spent⟩, obeyed⟩
  obtain ⟨-, ⟨-, still⟩, -⟩ := watched_run spends later watched
  exact still

/-- In every run in which no token joins a family under revocation and no set expires before
its tokens, a revocation that returned left no live token; and in every run a revoked token
stays revoked. -/
theorem family_revocation_complete (rt : Runtime) (cfg : Config)
    (pool : Pool Store Request Call Reply OAuthError Unit)
    (run : Reaches (Step (oauthSystem rt cfg)) Sealed (Pool.idle Store.empty) pool) :
    (∀ familyId ∈ pool.shared.revokedFamilies, ∀ tokenId, ¬Live pool.shared familyId tokenId) ∧
      ∀ after, Reaches (Step (oauthSystem rt cfg)) Sealed pool after → ∀ tokenId record,
        find (·.refreshTokenId) pool.shared.refresh tokenId = some record →
        record.isRevoked = true → ¬Available after.shared (.refresh tokenId) := by
  have start : Revoking Store.empty fun _ => none := by
    refine ⟨?_, fun _ _ _ none => (nomatch none), fun _ none => (nomatch none)⟩
    rintro _ _ ⟨_, ⟨⟩, _⟩
  obtain ⟨duties, revoking⟩ := invariantAt (revoking_preserved rt cfg) start run
  refine ⟨fun familyId ended => (revoking.finished familyId ended).2, ?_⟩
  intro after later tokenId record stored revoked
  exact (revoked_for_good run later stored revoked).2

def firstToken : String := "nnnnnnn"

def family : String := "nnnnn"

def secondToken : String := "nnnnnnnnn"

def revocation : Request := .revokeFamily family ⟨2000, by decide⟩ 1

def exchanged : List (Turn Request Expiry) := authorizing ++ turns 3 codeRequest 11

def afterwards : List (Turn Request Expiry) :=
  exchanged ++ turns 4 (refreshRequest firstToken) 14 ++ turns 5 revocation 5 ++
    turns 6 (refreshRequest secondToken) 2

theorem family_revocation_complete_afterwards :
    ∃ pool, Reaches (Step (oauthSystem plain server)) Sealed (Pool.idle Store.empty) pool ∧
      pool.shared.revokedFamilies = [family] ∧
      (∀ familyId ∈ pool.shared.revokedFamilies, ∀ tokenId, ¬Live pool.shared familyId tokenId) ∧
      ∀ after, Reaches (Step (oauthSystem plain server)) Sealed pool after → ∀ tokenId record,
        find (·.refreshTokenId) pool.shared.refresh tokenId = some record →
        record.isRevoked = true → ¬Available after.shared (.refresh tokenId) := by
  obtain ⟨pool, run, revoked⟩ : ∃ pool, Reaches (Step (oauthSystem plain server)) Sealed
      (Pool.idle Store.empty) pool ∧ Store.revokedFamilies pool.shared = [family] :=
    reaches_of_schedule Store.revokedFamilies serving_follows afterwards (by decide +kernel)
  exact ⟨pool, run, revoked, family_revocation_complete plain server pool run⟩

/-- The exchange has revoked the first token when the family is revoked, and stores the second
one after that. -/
def inBetween : List (Turn Request Expiry) :=
  exchanged ++ turns 4 (refreshRequest firstToken) 12 ++ turns 5 revocation 5 ++
    [.call 4, .call 4]

def seen (pool : Pool Store Request Call Reply OAuthError Unit) :
    List String × Option (String × Bool) × Bool :=
  (pool.shared.revokedFamilies,
    (find (·.refreshTokenId) pool.shared.refresh secondToken).map
      fun record => (record.familyId, record.isRevoked),
    (List.range 6).all fun i => finished (pool.workers i))

theorem live_after_revocation :
    ¬ ∀ (rt : Runtime) (cfg : Config) (pool : Pool Store Request Call Reply OAuthError Unit),
      Reaches (Step (oauthSystem rt cfg)) always (Pool.idle Store.empty) pool →
      (∀ i, finished (pool.workers i) = true) →
      ∀ familyId ∈ pool.shared.revokedFamilies, ∀ tokenId, ¬Live pool.shared familyId tokenId := by
  intro complete
  have left : (follow serving always (Pool.idle Store.empty) inBetween).map seen =
      some ([family], some (family, false), true) := by decide +kernel
  obtain ⟨pool, ran, looks⟩ := Option.map_eq_some_iff.mp left
  have run : Reaches (Step (oauthSystem plain server)) always (Pool.idle Store.empty) pool :=
    reaches_of_follow serving_follows ran
  have revoked : pool.shared.revokedFamilies = [family] := congrArg (·.1) looks
  have token : (find (·.refreshTokenId) pool.shared.refresh secondToken).map
      (fun record => (record.familyId, record.isRevoked)) = some (family, false) :=
    congrArg (·.2.1) looks
  have quiet := quiet_of_follow ran (n := 6) (by decide) (congrArg (·.2.2) looks)
  obtain ⟨record, found, same⟩ := Option.map_eq_some_iff.mp token
  have own : record.familyId = family := congrArg Prod.fst same
  have unrevoked : record.isRevoked = false := congrArg Prod.snd same
  exact complete plain server pool run quiet family (by rw [revoked]; exact List.mem_cons_self)
    secondToken ⟨record, found, own, unrevoked⟩

end MastopodFederation.Guarantees.FamilyRevocation
