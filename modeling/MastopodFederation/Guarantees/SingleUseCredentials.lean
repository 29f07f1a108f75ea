import MastopodFederation.Guarantees.OAuthRequests

/-!
# How often an OAuth credential is used

A request reads a credential, then deletes or revokes it, and does not look at what Redis
answers to that. Where no two requests that have read the same credential delete it one
after the other, each credential is used once and can not be used afterwards.
-/
namespace MastopodFederation.Guarantees.SingleUseCredentials
open Lib.GuardedRun Lib.WorkerPool Lib.PoolRuns Lib.SingleUse Lib.RecordStore
open Source.OAuthAuthorizationServer OAuthRequests

def takes (s : Store) : Call → Option Credential
  | .parDel requestUri => some (.par requestUri)
  | .codeDel code => some (.code code)
  | .challengeDel challengeId => some (.consent challengeId)
  | .revokeGet tokenId =>
    if (find (·.refreshTokenId) s.refresh tokenId).isNone then some (.refresh tokenId) else none
  | .refreshSet record _ => some (.refresh record.refreshTokenId)
  | _ => none

def Undisturbed (pool : Pool Store Request Call Reply OAuthError Unit) :
    Label Request Expiry Call Reply OAuthError Unit → Prop
  | .call i =>
    match pool.workers i with
    | some ⟨request, .call c _⟩ =>
      request.consumes = true → (takes pool.shared c).all (· ∉ pool.shared.taken) = true
    | _ => True
  | _ => True

instance decidableWorker (s : Store) (worker : Option (Worker Request Call Reply OAuthError Unit)) :
    Decidable (match worker with
      | some ⟨request, .call c _⟩ =>
        request.consumes = true → (takes s c).all (· ∉ s.taken) = true
      | _ => True) := by
  rcases worker with _ | ⟨request, _ | ⟨c, _⟩⟩ <;> dsimp only <;> infer_instance

instance (pool : Pool Store Request Call Reply OAuthError Unit) :
    ∀ label, Decidable (Undisturbed pool label)
  | .call i => decidableWorker pool.shared (pool.workers i)
  | .stop _ | .start .. | .act _ => .isTrue trivial

section Calls
variable {s t : Store} {u v : Duty} {request : Request} {k : Credential} {c : Call}

structure Takes (s : Store) (u : Duty) (t : Store) (v : Duty) (c : Call) (k : Credential) :
    Prop where
  takes : takes s c = some k
  consumes : u.consumes = true
  taken : t.taken = k :: s.taken
  used : t.used = s.used
  claim : v.claim = some k
  spent : Spent t k

structure Reports (s : Store) (u : Duty) (t : Store) (v : Duty) (k : Credential) : Prop where
  claimed : u.claim = some k
  taken : t.taken = s.taken
  used : t.used = k :: s.used
  claim : v.claim = none

structure Ignores (s : Store) (u : Duty) (t : Store) (v : Duty) : Prop where
  taken : t.taken = s.taken
  used : t.used = s.used
  claim : v.claim = u.claim

theorem takes_or_ignores {r : Store} {w : Duty} (own : u.consumes = request.consumes)
    (takes : takes s c = some k) (taken : r.taken = s.taken) (used : r.used = s.used)
    (consumes : w.consumes = u.consumes) (claim : w.claim = u.claim)
    (read : request.consumes = true → k.text ∈ r.issued) (gone : ¬Available r k) :
    Takes s u (r.take request k) (w.claiming k) c k ∨
      Ignores s u (r.take request k) (w.claiming k) := by
  cases kind : request.consumes with
  | true =>
    left
    refine ⟨takes, own.trans kind, ?_, ?_, ?_, ?_, ?_⟩
    · rw [Store.take, if_pos kind, ← taken]
    · rw [Store.take, if_pos kind, ← used]
    · exact w.claiming_claim k ((consumes.trans own).trans kind)
    · rw [take_issued]
      exact read kind
    · rw [available_take]
      exact gone
  | false =>
    right
    have idle : ¬w.consumes = true := by rw [consumes, own, kind]; exact Bool.false_ne_true
    have still : r.take request k = r := if_neg (by rw [kind]; exact Bool.false_ne_true)
    rw [still]
    exact ⟨taken, used, (congrArg Duty.claim (if_neg idle)).trans claim⟩

theorem gone_of_erase {α : Type} {name : α → String} {records : List α} {key : String} :
    ¬(find name (erase name records key) key).isSome = true := by
  rw [find_erase, if_pos rfl]
  exact Bool.false_ne_true

theorem setAll_taken : ∀ (writes : List (RefreshTokenRecord × Nat)) (s : Store),
    (s.setAll writes).taken = s.taken
  | [], _ => rfl
  | write :: writes, s => setAll_taken writes (s.setRefresh write.1)

theorem setAll_used : ∀ (writes : List (RefreshTokenRecord × Nat)) (s : Store),
    (s.setAll writes).used = s.used
  | [], _ => rfl
  | write :: writes, s => setAll_used writes (s.setRefresh write.1)

theorem call_claims {reply : Reply c} (own : u.consumes = request.consumes)
    (reads : ∀ k ∈ u.reads, k.text ∈ s.issued) (allowed : requestMonitor.allows u c)
    (performed : Store.Effect request c s reply t) :
    (∃ k, Takes s u t (requestMonitor.after u c reply) c k) ∨
      (∃ k, Reports s u t (requestMonitor.after u c reply) k) ∨
      Ignores s u t (requestMonitor.after u c reply) := by
  have settle : ∀ {t v k}, Takes s u t v c k ∨ Ignores s u t v →
      (∃ k, Takes s u t v c k) ∨ (∃ k, Reports s u t v k) ∨ Ignores s u t v :=
    fun either => either.imp (fun takes => ⟨_, takes⟩) .inr
  cases c with
  | parDel requestUri =>
    cases performed
    exact settle (takes_or_ignores own rfl rfl rfl rfl rfl (fun _ => reads _ allowed) gone_of_erase)
  | codeDel code =>
    cases performed
    exact settle (takes_or_ignores own rfl rfl rfl rfl rfl (fun _ => reads _ allowed) gone_of_erase)
  | challengeDel challengeId =>
    cases performed
    exact settle (takes_or_ignores own rfl rfl rfl rfl rfl (fun _ => reads _ allowed) gone_of_erase)
  | revokeGet tokenId =>
    obtain ⟨answer, changed⟩ := performed
    cases reply with
    | none =>
      have absent := find_of_lookup_none answer.symm
      rw [if_pos (by rfl)] at changed
      rw [changed]
      apply settle
      apply takes_or_ignores own _ rfl rfl rfl rfl
      · exact fun consumes => reads _ (allowed (own.trans consumes))
      · rintro ⟨record, found, -⟩
        rw [absent] at found
        cases found
      · rw [takes, absent]
        rfl
    | some current =>
      rw [if_neg (by exact Bool.false_ne_true)] at changed
      rw [changed]
      exact .inr (.inr ⟨rfl, rfl, rfl⟩)
  | refreshSet record ttl =>
    cases performed
    obtain ⟨read, revoked⟩ := allowed
    apply settle
    refine takes_or_ignores (r := s.setRefresh record) own rfl rfl rfl rfl rfl
      (fun _ => reads _ read) ?_
    rintro ⟨found, there, live⟩
    simp only [Store.setRefresh, find_put, if_pos] at there
    cases there
    rw [revoked] at live
    cases live
  | succeeded credential =>
    cases performed
    exact .inr (.inl ⟨credential, allowed, rfl, rfl, rfl⟩)
  | refreshSetAll writes =>
    cases performed
    exact .inr (.inr ⟨setAll_taken writes s, setAll_used writes s, rfl⟩)
  | parGet | codeGet | challengeGet | refreshGet =>
    obtain ⟨rfl, rfl⟩ := performed
    refine .inr (.inr ⟨rfl, rfl, ?_⟩)
    unfold requestMonitor
    dsimp only
    split <;> rfl
  | familyScan familyId cursor =>
    obtain ⟨-, -, rfl⟩ := performed
    unfold Store.beginRevoking
    split <;> exact .inr (.inr ⟨rfl, rfl, rfl⟩)
  | randomUUID =>
    obtain ⟨-, rfl⟩ := performed
    exact .inr (.inr ⟨rfl, rfl, rfl⟩)
  | refreshMget tokenIds =>
    obtain ⟨-, rfl⟩ := performed
    exact .inr (.inr ⟨rfl, rfl, rfl⟩)
  | _ =>
    cases performed
    exact .inr (.inr ⟨rfl, rfl, rfl⟩)

end Calls

def claimRight (_ : Request) (u : Duty) : Option Credential := u.claim

structure Claims (s : Store) (duties : Nat → Option (Request × Duty)) : Prop where
  minted : Minted s duties
  once : Exclusive (rights claimRight duties) s.used
  taken : ∀ k, k ∈ s.used ∨ (∃ i, rights claimRight duties i = some k) → k ∈ s.taken
  spent : ∀ k ∈ s.taken, Spent s k

section Claims
variable {s t : Store} {u v : Duty} {request : Request} {k : Credential} {i : Nat} {c : Call}
  {duties : Nat → Option (Request × Duty)}

theorem Claims.unclaimed (claims : Claims s duties) {duty : Option (Request × Duty)}
    (free : duty.bind (fun d => claimRight d.1 d.2) = none)
    (minted : Minted s (setDuty duties i duty)) : Claims s (setDuty duties i duty) := by
  have changed := rights_setDuty claimRight duties i duty
  rw [free] at changed
  refine ⟨minted, ?_, fun k held => claims.taken k (held.imp id ?_), claims.spent⟩
  · rw [changed]
    exact claims.once.drop
  · rintro ⟨j, later⟩
    rw [changed] at later
    rcases setRight_some later with ⟨-, ⟨⟩⟩ | ⟨-, before⟩
    exact ⟨j, before⟩

theorem Claims.takes (claims : Claims s duties) (fresh : k ∉ s.taken)
    (minted : Minted t (setDuty duties i (some (request, v))))
    (still : ∀ k, Spent s k → Spent t k) (takes : Takes s u t v c k) : Claims t (setDuty duties i (some (request, v))) := by
  have changed := rights_setDuty claimRight duties i (some (request, v))
  have right : (some (request, v)).bind (fun d => claimRight d.1 d.2) = some k := takes.claim
  rw [right] at changed
  refine ⟨minted, ?_, fun other held => ?_, fun other listed => ?_⟩
  · rw [changed, takes.used]
    apply claims.once.acquire
    · exact fun used => fresh (claims.taken k (.inl used))
    · exact fun j held => fresh (claims.taken k (.inr ⟨j, held⟩))
  · rw [takes.taken]
    rcases held with used | ⟨j, later⟩
    · rw [takes.used] at used
      exact List.mem_cons_of_mem _ (claims.taken other (.inl used))
    · rw [changed] at later
      rcases setRight_some later with ⟨-, ⟨⟩⟩ | ⟨-, before⟩
      · exact List.mem_cons_self
      · exact List.mem_cons_of_mem _ (claims.taken other (.inr ⟨j, before⟩))
  · rw [takes.taken] at listed
    rcases List.mem_cons.mp listed with rfl | before
    · exact takes.spent
    · exact still other (claims.spent other before)

theorem Claims.reports (claims : Claims s duties) (duty : duties i = some (request, u))
    (minted : Minted t (setDuty duties i (some (request, v))))
    (still : ∀ k, Spent s k → Spent t k) (reports : Reports s u t v k) :
    Claims t (setDuty duties i (some (request, v))) := by
  have changed := rights_setDuty claimRight duties i (some (request, v))
  have right : (some (request, v)).bind (fun d => claimRight d.1 d.2) = none := reports.claim
  rw [right] at changed
  have held : rights claimRight duties i = some k := by
    rw [rights, duty]
    exact reports.claimed
  refine ⟨minted, ?_, fun other later => ?_, fun other listed => ?_⟩
  · rw [changed, reports.used]
    exact claims.once.use held
  · rw [reports.taken]
    apply claims.taken other
    rcases later with used | ⟨j, later⟩
    · rw [reports.used] at used
      rcases List.mem_cons.mp used with rfl | before
      · exact .inr ⟨i, held⟩
      · exact .inl before
    · rw [changed] at later
      rcases setRight_some later with ⟨-, ⟨⟩⟩ | ⟨-, before⟩
      exact .inr ⟨j, before⟩
  · rw [reports.taken] at listed
    exact still other (claims.spent other listed)

theorem Claims.ignores (claims : Claims s duties) (duty : duties i = some (request, u))
    (minted : Minted t (setDuty duties i (some (request, v))))
    (still : ∀ k, Spent s k → Spent t k) (ignores : Ignores s u t v) :
    Claims t (setDuty duties i (some (request, v))) := by
  have same : rights claimRight (setDuty duties i (some (request, v))) =
      rights claimRight duties := by
    rw [rights_setDuty]
    have right : (some (request, v)).bind (fun d => claimRight d.1 d.2) =
        rights claimRight duties i := by
      rw [rights, duty]
      exact ignores.claim
    rw [right, setRight_self]
  refine ⟨minted, ?_, ?_, fun other listed => ?_⟩
  · rw [same, ignores.used]
    exact claims.once
  · rw [same, ignores.used, ignores.taken]
    exact claims.taken
  · rw [ignores.taken] at listed
    exact still other (claims.spent other listed)

end Claims

theorem claims_preserved (rt : Runtime) (cfg : Config) :
    PreservesAt (oauthSystem rt cfg) Undisturbed requestMonitor (fun _ => True) Claims where
  call pool duties i request u c next reply t admitted claims running duty allowed performed := by
    have minted := claims.minted.call duty allowed performed
    have still := fun k (spent : Spent pool.shared k) =>
      claims.minted.spent duty allowed performed spent
    rcases call_claims (claims.minted.own i request u duty) (claims.minted.reads i request u duty)
      allowed performed with ⟨k, takes⟩ | ⟨k, reports⟩ | ignores
    · have undisturbed : Undisturbed pool (.call i) := admitted
      simp only [Undisturbed, running] at undisturbed
      have fresh := undisturbed ((claims.minted.own i request u duty).symm.trans takes.consumes)
      rw [takes.takes] at fresh
      exact claims.takes (by simpa using fresh) minted still takes
    · exact claims.reports duty minted still reports
    · exact claims.ignores duty minted still ignores
  stop pool duties i _ claims _ := claims.unclaimed rfl claims.minted.dropped
  start pool duties i worker _ claims _ starts := by
    refine ⟨Duty.start worker.tag.consumes, ?_, claims.unclaimed rfl claims.minted.started⟩
    rw [(starts : worker.program = _)]
    exact handle_obeys rt cfg worker.tag
  act pool duties expiry after _ claims acted := by
    cases (acted : after = _)
    have taken : (pool.shared.expire expiry).taken = pool.shared.taken := by cases expiry <;> rfl
    have used : (pool.shared.expire expiry).used = pool.shared.used := by cases expiry <;> rfl
    refine ⟨claims.minted.expired expiry, ?_, ?_, fun k listed => ?_⟩
    · rw [used]
      exact claims.once
    · rw [used, taken]
      exact claims.taken
    · rw [taken] at listed
      exact (claims.spent k listed).expired expiry

/-- In every run in which no request takes a credential that another one took since it was
read, each credential is used once, and a used one can not be used any more. -/
theorem credentials_single_use (rt : Runtime) (cfg : Config)
    (pool : Pool Store Request Call Reply OAuthError Unit)
    (run : Reaches (Step (oauthSystem rt cfg)) Undisturbed (Pool.idle Store.empty) pool) :
    pool.shared.used.Nodup ∧ ∀ k ∈ pool.shared.used, ¬Available pool.shared k := by
  have start : Claims Store.empty fun _ => none := by
    refine ⟨minted_empty, exclusive_none, fun k held => ?_, fun _ listed => nomatch listed⟩
    rcases held with ⟨⟨⟩⟩ | ⟨_, ⟨⟩⟩
  obtain ⟨duties, claims⟩ := invariantAt (claims_preserved rt cfg) start run
  exact ⟨claims.once.once, fun k used => (claims.spent k (claims.taken k (.inl used))).2⟩

def oneByOne : List (Turn Request Expiry) :=
  authorizing ++ turns 3 codeRequest 11 ++ turns 4 codeRequest 1 ++
    turns 5 (refreshRequest "nnnnnnn") 14 ++ turns 6 (refreshRequest "nnnnnnn") 2

theorem credentials_single_use_oneByOne :
    ∃ pool, Reaches (Step (oauthSystem plain server)) Undisturbed (Pool.idle Store.empty) pool ∧
      pool.shared.used = [.refresh "nnnnnnn", .code "nnnn", .par requestUri, .consent "nn"] ∧
      pool.shared.used.Nodup ∧ ∀ k ∈ pool.shared.used, ¬Available pool.shared k := by
  obtain ⟨pool, run, used⟩ : ∃ pool, Reaches (Step (oauthSystem plain server)) Undisturbed
      (Pool.idle Store.empty) pool ∧ Store.used pool.shared =
        [.refresh "nnnnnnn", .code "nnnn", .par requestUri, .consent "nn"] :=
    reaches_of_schedule Store.used serving_follows oneByOne (by decide +kernel)
  exact ⟨pool, run, used, credentials_single_use plain server pool run⟩

def atOnce : List (Turn Request Expiry) :=
  authorizing ++ turns 3 codeRequest 1 ++ turns 4 codeRequest 1 ++
    List.replicate 10 (.call 3) ++ List.replicate 10 (.call 4)

theorem code_used_twice :
    ¬ ∀ (rt : Runtime) (cfg : Config) (pool : Pool Store Request Call Reply OAuthError Unit),
      Reaches (Step (oauthSystem rt cfg)) always (Pool.idle Store.empty) pool →
      pool.shared.used.Nodup := by
  intro once
  obtain ⟨pool, run, used⟩ : ∃ pool, Reaches (Step (oauthSystem plain server)) always
      (Pool.idle Store.empty) pool ∧ Store.used pool.shared =
        [.code "nnnn", .code "nnnn", .par requestUri, .consent "nn"] :=
    reaches_of_schedule Store.used serving_follows atOnce (by decide +kernel)
  have single := once plain server pool run
  rw [used] at single
  exact absurd single (by decide)

end MastopodFederation.Guarantees.SingleUseCredentials
