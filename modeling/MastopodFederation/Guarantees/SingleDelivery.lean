import MastopodFederation.Guarantees.OneDisposition
import MastopodFederation.Source.DeliveryClaims

/-!
# One delivery for each claim period

A worker POSTs only under a claim it was granted, at most once, and releases or completes only
with its own token (`obeys_processJob`). While a claim is live nobody else is granted one, and a
completed marker outlives its completion by the retention; so POSTs that succeed are eight days
apart, provided that every delivery persists its marker before its claim elapses.
-/
namespace MastopodFederation.Guarantees.SingleDelivery
open Lib.Calls Lib.WorkerPool Lib.GuardedRun Source.DelayedQueue
open Source.OutboundWorker Source.DeliveryClaims OutboundCalls

inductive Phase where
  | idle
  | drawn (token : String)
  | claimed (token : String)
  | posted (token : String)
  | closed (token : String)

def Phase.token : Phase → Option String
  | .idle => none
  | .drawn token | .claimed token | .posted token | .closed token => some token

def Phase.holder : Phase → Option String
  | .idle | .drawn _ => none
  | .claimed token | .posted token | .closed token => some token

def Phase.allows (jobId : String) (phase : Phase) : Call → Prop
  | .randomUUID => phase = .idle
  | .claim id claimToken _ => id = jobId ∧ phase = .drawn claimToken
  | .request .. => ∃ token, phase = .claimed token
  | .complete id claimToken _ | .release id claimToken =>
    id = jobId ∧ phase.holder = some claimToken
  | _ => True

def Phase.post : Phase → Phase
  | .claimed token => .posted token
  | phase => phase

def granted : Except Failure DeliveryClaimResult → Bool
  | .ok .claimed => true
  | _ => false

def Phase.after (phase : Phase) : (c : Call) → Reply c → Phase
  | .randomUUID, token => .drawn token
  | .claim _ claimToken _, reply => if granted reply then .claimed claimToken else phase
  | .request .., _ => phase.post
  | .complete _ claimToken _, _ | .release _ claimToken, _ => .closed claimToken
  | _, _ => phase

def progress (jobId : String) : Monitor Call Reply Phase := ⟨Phase.allows jobId, Phase.after⟩

abbrev Untracked (c : Call) : Prop := tracked c = false

theorem untracked_of_quiet (c : Call) (quiet : Quiet c) : Untracked c := by
  cases c <;> first | rfl | cases quiet

section Handler
variable (env : Environment) (cfg : Config) {jobId token : String} {α : Type}

theorem silent_of_untracked {ε : Type} {x : Prog Call Reply ε α} (only : Only Untracked x) :
    Silent (progress jobId) x := by
  apply only.silent
  intro phase c untracked
  cases c <;> first
    | exact ⟨trivial, fun _ => rfl⟩
    | cases untracked

theorem silent_of_quiet {ε : Type} {x : Prog Call Reply ε α} (only : Only Quiet x) :
    Silent (progress jobId) x :=
  silent_of_untracked (only.imp untracked_of_quiet)

theorem untracked_ask {c : Call} {next : Reply c → Except Failure α}
    (untracked : Untracked c) : Only Untracked (.call c fun r => .done (next r) : Program α) :=
  only_call untracked fun _ => only_done _

theorem untracked_enqueueOutbound (job : OutboundJob) :
    Only Untracked (enqueueOutbound env job) := by
  rw [enqueueOutbound_eq]
  apply only_bind (quiet_clock.imp untracked_of_quiet)
  intro nowMs
  unfold enqueueOne
  split
  · exact untracked_ask rfl
  · split
    · exact untracked_ask rfl
    · exact only_fail _

theorem untracked_deadLetter (messageId reason : String) (job : OutboundJob) :
    Only Untracked (deadLetter messageId job reason) := by
  unfold deadLetter
  apply only_bind
  · exact untracked_ask rfl
  · exact fun _ => untracked_ask rfl

theorem untracked_defer (messageId reason : String) (job : OutboundJob) (baseDelayMs : Int) :
    Only Untracked (defer env cfg messageId job reason baseDelayMs) := by
  unfold defer deferOrParkJob
  dsimp only
  apply only_bind
  · split
    · exact untracked_ask rfl
    · apply only_bind ((quiet_notReadyJitter cfg).imp untracked_of_quiet)
      intro jitterMs
      apply only_bind (quiet_clock.imp untracked_of_quiet)
      exact fun _ => untracked_enqueueOutbound env _
  · exact fun _ => untracked_ask rfl

theorem untracked_callAdapter {hook : Program Unit} (only : Only Untracked hook) :
    Only Untracked (callAdapter hook) := only_rescue only fun _ => only_done _

def Holding (token : String) (phase : Phase) : Prop := phase.holder = some token

theorem keeps_release :
    Keeps (progress jobId) (Holding token) (release jobId token) := by
  intro phase holding
  exact ⟨⟨rfl, holding⟩, fun _ => rfl⟩

theorem keeps_complete {ttlMs : Int} :
    Keeps (progress jobId) (Holding token)
      (.call (.complete jobId token ttlMs) .done : Program Unit) := by
  intro phase holding
  exact ⟨⟨rfl, holding⟩, fun _ => rfl⟩

theorem keeps_untracked {ε : Type} {x : Prog Call Reply ε α} (only : Only Untracked x) :
    Keeps (progress jobId) (Holding token) x := (silent_of_untracked only).keeps

abbrev Posts {ε α : Type} (jobId token : String) (x : Prog Call Reply ε α) : Prop :=
  Meets (progress jobId) x (fun phase _ => Holding token phase) (.claimed token)

section Posts
variable {ε ε' α β : Type} {x : Prog Call Reply ε α}

theorem posts_of_keeps (keeps : Keeps (progress jobId) (Holding token) x) :
    Posts jobId token x := keeps _ rfl

theorem posts_of_quiet (only : Only Quiet x) : Posts jobId token x :=
  (silent_of_quiet only).meets fun _ => rfl

variable {f : α → Prog Call Reply ε β}

theorem posts_bind (quiet : Only Quiet x)
    (next : ∀ a, Posts jobId token (f a)) : Posts jobId token (x >>= f) :=
  (silent_of_quiet quiet).bind next fun _ => rfl

theorem posts_then (posts : Posts jobId token x)
    (keeps : ∀ a, Keeps (progress jobId) (Holding token) (f a)) : Posts jobId token (x >>= f) := by
  unfold Posts
  rw [meets_bind]
  apply posts.imp
  intro phase outcome holding
  cases outcome with
  | ok a => exact keeps a phase holding
  | error e => exact holding

theorem posts_rescue {handler : ε → Prog Call Reply ε' α} (posts : Posts jobId token x)
    (keeps : ∀ e, Keeps (progress jobId) (Holding token) (handler e)) :
    Posts jobId token (x.rescue handler) := by
  unfold Posts
  rw [meets_rescue]
  apply posts.imp
  intro phase outcome holding
  cases outcome with
  | ok a => exact holding
  | error e => exact keeps e phase holding

theorem posts_attempt (posts : Posts jobId token x) :
    Posts jobId token (x.attempt : Prog Call Reply ε' (Except ε α)) := by
  unfold Posts
  rw [meets_attempt]
  exact posts

theorem keeps_quiet (only : Only Quiet x) : Keeps (progress jobId) (Holding token) x :=
  (silent_of_quiet only).keeps

end Posts

theorem posts_secureActivityPubRequest (url : String) (headers : List (String × String))
    (body : String) (allowed : Int → Except Failure Unit) :
    Posts jobId token (secureActivityPubRequest url headers body allowed) := by
  unfold secureActivityPubRequest
  apply posts_bind (quiet_ask rfl)
  intro _
  apply posts_bind quiet_clock
  intro startedAt
  apply posts_bind (only_done _)
  exact fun _ => ⟨⟨token, rfl⟩, fun _ => rfl⟩

theorem posts_requestSigned (job : OutboundJob) (signed : SignedHeaders) :
    Posts jobId token (requestSigned env cfg job signed) := by
  unfold requestSigned
  apply posts_bind (quiet_syncHeader env cfg job)
  intro sync
  apply posts_bind quiet_clock
  intro _
  apply posts_bind (only_done _)
  intro _
  apply posts_then (posts_secureActivityPubRequest _ _ _ _)
  intro response
  apply keeps_bind (keeps_quiet quiet_clock)
  intro nowMs
  apply keeps_bind (keeps_quiet (quiet_ask rfl))
  exact fun _ => keeps_pure _

theorem posts_adapterPost (job : OutboundJob) (url : String) (signed : SignedHeaders)
    (sync : Option String) : Posts jobId token (adapterPost env cfg job url signed sync) := by
  unfold adapterPost adapterRequest
  apply posts_bind quiet_clock
  intro _
  apply posts_bind (only_done _)
  intro _
  apply posts_rescue
  · apply posts_then (posts_secureActivityPubRequest _ _ _ _)
    intro response
    apply keeps_bind (keeps_quiet (quiet_ask rfl))
    intro responseBody
    apply keeps_bind (keeps_quiet quiet_clock)
    exact fun _ => keeps_pure _
  · exact fun _ => keeps_pure _

theorem posts_deliverOutbound (job : OutboundJob) :
    Posts jobId token (deliverOutbound env cfg job) := by
  unfold deliverOutbound deliverWithLocalSigning deliverWithSigningService
  split
  · exact posts_of_quiet (only_pure _)
  · split
    · apply posts_bind (only_attempt (quiet_ask rfl))
      intro signing
      split
      · exact posts_of_quiet (only_pure _)
      · exact posts_adapterPost env cfg job _ _ _
    · apply posts_bind (only_attempt (quiet_ask rfl))
      intro signing
      split
      · exact posts_of_quiet (only_pure _)
      · exact posts_of_quiet (only_pure _)
      · apply posts_bind (quiet_syncHeader env cfg job)
        exact fun sync => posts_adapterPost env cfg job _ _ sync

theorem posts_deliver (job : OutboundJob) : Posts jobId token (deliver env cfg job) := by
  unfold deliver
  split
  · exact posts_of_quiet (only_pure _)
  · split
    · exact posts_deliverOutbound env cfg job
    · apply posts_bind (quiet_ask rfl)
      intro signing
      split
      · exact posts_of_quiet (only_pure _)
      · apply posts_rescue (posts_requestSigned env cfg job _)
        intro failure
        split
        · exact keeps_fail _
        · exact keeps_pure _

variable {held : Bool} {body : Program α}

theorem keeps_claimHeld (keeps : Keeps (progress jobId) (Holding token) body) :
    Keeps (progress jobId) (Holding token) (claimHeld held body) := keeps_mapError keeps

theorem quiet_claimHeld (only : Only Quiet body) :
    Only Quiet (claimHeld held body) := only_rescue only fun _ => only_done _

theorem posts_claimHeld
    (posts : Posts jobId token body) : Posts jobId token (claimHeld held body) :=
  posts_rescue posts fun _ => keeps_done _

variable (messageId : String) (job : OutboundJob)

theorem keeps_settleSuccess (result : DeliveryResult) :
    Keeps (progress job.jobId) (Holding token)
      (settleSuccess cfg messageId token job result) := by
  unfold settleSuccess
  apply keeps_bind (keeps_attempt keeps_complete)
  intro persisted
  split
  · exact keeps_pure _
  · apply keeps_bind (keeps_claimHeld (keeps_untracked (untracked_ask rfl)))
    intro _
    apply keeps_bind
    · exact keeps_claimHeld (keeps_untracked (untracked_callAdapter (untracked_ask rfl)))
    · exact fun _ => keeps_pure _

theorem keeps_settleFailure (result : DeliveryResult) :
    Keeps (progress job.jobId) (Holding token)
      (settleFailure env messageId token job result) := by
  unfold settleFailure
  apply keeps_bind (keeps_claimHeld keeps_release)
  intro _
  apply keeps_claimHeld
  apply keeps_untracked
  split
  · apply only_bind (untracked_deadLetter _ _ _)
    exact fun _ => untracked_callAdapter (untracked_ask rfl)
  · dsimp only
    split
    · apply only_bind (untracked_deadLetter _ _ _)
      exact fun _ => untracked_callAdapter (untracked_ask rfl)
    · apply only_bind (quiet_clock.imp untracked_of_quiet)
      intro nowMs
      apply only_bind (untracked_enqueueOutbound env _)
      exact fun _ => untracked_ask rfl

theorem posts_deliverInSlot :
    Posts job.jobId token (deliverInSlot env cfg messageId token job) := by
  unfold deliverInSlot
  apply posts_bind (quiet_claimHeld quiet_clock)
  intro nowMs
  split
  · apply posts_of_keeps
    apply keeps_bind (keeps_claimHeld keeps_release)
    intro _
    apply keeps_bind (keeps_claimHeld (keeps_untracked (untracked_deadLetter _ _ _)))
    exact fun _ => keeps_pure _
  · apply posts_then (posts_claimHeld (posts_deliver env cfg job))
    intro result
    split
    · exact keeps_settleSuccess cfg messageId job result
    · apply keeps_bind (keeps_settleFailure env messageId job result)
      exact fun _ => keeps_pure _

theorem posts_withDomainSlot :
    Posts job.jobId token (withDomainSlot env cfg messageId token job) := by
  unfold withDomainSlot
  apply posts_then (posts_attempt (posts_deliverInSlot env cfg messageId job))
  intro outcome
  apply keeps_bind (keeps_claimHeld (keeps_untracked (untracked_ask rfl)))
  intro _
  cases outcome with
  | ok _ => exact keeps_pure _
  | error _ => exact keeps_fail _

theorem posts_processClaimed :
    Posts job.jobId token (processClaimed env cfg messageId token job) := by
  have gives : ∀ {body : Program Unit}, Only Untracked body →
      Posts job.jobId token (claimHeld true (release job.jobId token) >>= fun _ =>
        claimHeld false body) := by
    intro body only
    apply posts_of_keeps
    apply keeps_bind (keeps_claimHeld keeps_release)
    exact fun _ => keeps_claimHeld (keeps_untracked only)
  unfold processClaimed
  apply posts_bind (quiet_claimHeld (quiet_ask rfl))
  intro blocked
  split
  · exact gives (untracked_deadLetter _ _ _)
  · apply posts_bind (quiet_claimHeld (quiet_ask rfl))
    intro withinLimit
    split
    · exact gives (untracked_defer env cfg _ _ _ _)
    · apply posts_bind (quiet_claimHeld (quiet_ask rfl))
      intro slot
      split
      · exact gives (untracked_defer env cfg _ _ _ _)
      · exact posts_withDomainSlot env cfg messageId job

def Releasable {α : Type} (token : String) (phase : Phase) : Except Thrown α → Prop
  | .ok _ => True
  | .error thrown => thrown.claimHeld = true → Holding token phase

abbrev Attempts {α : Type} (jobId token : String) (x : Guarded α) : Prop :=
  Meets (progress jobId) x (Releasable token) (.drawn token)

theorem attempts_untracked (only : Only Untracked body) :
    Attempts jobId token (claimHeld false body) := by
  unfold Attempts claimHeld
  rw [meets_mapError]
  apply (silent_of_untracked only).meets
  intro outcome
  cases outcome with
  | ok _ => trivial
  | error _ => exact fun held => nomatch held

theorem attempts_bind {β : Type} {f : α → Guarded β}
    (only : Only Untracked body) (next : ∀ a, Attempts jobId token (f a)) :
    Attempts jobId token (claimHeld false body >>= f) := by
  unfold Attempts claimHeld
  rw [meets_bind, meets_mapError]
  apply (silent_of_untracked only).meets
  intro outcome
  cases outcome with
  | ok a => exact next a
  | error _ => exact fun held => nomatch held

theorem attempts_claimAndProcess :
    Attempts job.jobId token (claimAndProcess env cfg messageId token job) := by
  unfold Attempts claimAndProcess
  rw [meets_bind]
  refine ⟨⟨rfl, rfl⟩, fun reply => ?_⟩
  cases reply with
  | error _ => exact fun held => nomatch held
  | ok result =>
    cases result with
    | claimed =>
      apply (posts_processClaimed env cfg messageId job).imp
      intro phase outcome holding
      cases outcome with
      | ok _ => trivial
      | error _ => exact fun _ => holding
    | completed => exact attempts_untracked (untracked_ask rfl)
    | inFlight => exact attempts_untracked (untracked_defer env cfg _ _ _ _)

theorem attempts_attemptJob (startedAt : Int) :
    Attempts job.jobId token (attemptJob env cfg messageId token startedAt job) := by
  unfold attemptJob
  split
  · exact attempts_untracked (untracked_deadLetter _ _ _)
  · apply attempts_bind ((quiet_capabilityGate cfg).imp untracked_of_quiet)
    intro gate
    split
    · exact attempts_untracked (untracked_deadLetter _ _ _)
    · apply attempts_bind ((quiet_waitUntilReady job).imp untracked_of_quiet)
      intro pending
      split
      · trivial
      · exact attempts_claimAndProcess env cfg messageId job

theorem obeys_processJob :
    Obeys (progress job.jobId) (processJob env cfg messageId job) .idle := by
  unfold Obeys processJob
  apply (silent_of_quiet quiet_clock).bind _ fun _ => trivial
  intro startedAt
  refine ⟨rfl, fun token => ?_⟩
  change Meets _ (Prog.rescue _ _) _ (Phase.drawn token)
  rw [meets_rescue]
  apply (attempts_attemptJob env cfg messageId job startedAt).imp
  intro phase outcome releasable
  cases outcome with
  | ok _ => trivial
  | error thrown =>
    have buries : Only Untracked (do
        moveToDlq { job with lastError := some (env.sanitizeErrorText thrown.failure.message) }
          ("Worker processing error: " ++ env.sanitizeErrorText thrown.failure.message)
        ack messageId) := untracked_deadLetter _ _ _
    change Meets _ (recover env messageId token job thrown) _ phase
    unfold recover
    dsimp only
    split
    next held =>
      rw [meets_bind]
      apply (keeps_rescue keeps_release (fun _ => keeps_pure _) phase (releasable held)).imp
      intro later outcome _
      cases outcome with
      | ok _ => exact (silent_of_untracked buries).meets fun _ => trivial
      | error _ => trivial
    · exact (silent_of_untracked buries).meets fun _ => trivial

end Handler

section Scripts
variable {keys : ClaimKeys} {nowMs : Int}

theorem owner_of_live {owner : String} {expiry : Int} (held : keys.claim = some (owner, expiry))
    (live : nowMs ≤ expiry) : keys.owner nowMs = some owner := by
  simp [ClaimKeys.owner, held, live]

theorem dropClaim_other {owner token : String} {expiry : Int}
    (held : keys.claim = some (owner, expiry)) (other : token ≠ owner) :
    keys.dropClaim nowMs token = keys.claim := by
  unfold ClaimKeys.dropClaim ClaimKeys.owner
  rw [held]
  dsimp only
  split
  · exact if_neg fun same => other (Option.some.inj same).symm
  · exact if_neg nofun

/-- The completed marker stays or is set for at least the retention, and the legacy
marker stays or leaves a completed marker. -/
structure Renews (nowMs : Int) (keys after : ClaimKeys) : Prop where
  marker : after.completed = keys.completed ∨
    ∃ expiry, after.completed = some expiry ∧ nowMs + minCompletedDeliveryTtlMs ≤ expiry
  legacy : after.legacyCompleted = keys.legacyCompleted ∨ after.completed.isSome

theorem renews_claim (claim : Option (String × Int)) :
    Renews nowMs keys { keys with claim := claim } := ⟨.inl rfl, .inl rfl⟩

theorem renews_convertLegacy : Renews nowMs keys (keys.convertLegacy nowMs) := by
  unfold ClaimKeys.convertLegacy
  split
  next live =>
    refine ⟨.inl rfl, .inr ?_⟩
    cases marked : keys.completed with
    | some _ => rfl
    | none => rw [marked] at live; cases live
  · exact ⟨.inr ⟨_, rfl, le_refl _⟩, .inr rfl⟩

/-- What the claim script does: it grants a claim where no marker or claim exists, or
leaves the claim alone. -/
theorem claimScript_cases (keys : ClaimKeys) (nowMs : Int) (token : String) (ttlMs : Int) :
    (keys.claimScript nowMs token ttlMs =
        (.claimed, { keys with claim := some (token, nowMs + max 1000 ttlMs) }) ∧
      keyExists nowMs keys.completed = false ∧ keyExists nowMs keys.legacyCompleted = false ∧
      keys.owner nowMs = none) ∨
    ((keys.claimScript nowMs token ttlMs).1 ≠ .claimed ∧
      (keys.claimScript nowMs token ttlMs).2.claim = keys.claim ∧
      Renews nowMs keys (keys.claimScript nowMs token ttlMs).2) := by
  unfold ClaimKeys.claimScript
  split
  · exact .inr ⟨nofun, rfl, renews_claim _⟩
  next unmarked =>
    split
    · exact .inr ⟨nofun, rfl, renews_convertLegacy⟩
    next unmarkedLegacy =>
      split
      next free =>
        left
        exact ⟨rfl, Bool.eq_false_iff.mpr unmarked, Bool.eq_false_iff.mpr unmarkedLegacy,
          Option.isNone_iff_eq_none.mp free⟩
      · split
        · exact .inr ⟨nofun, rfl, renews_claim _⟩
        · exact .inr ⟨nofun, rfl, renews_claim _⟩

theorem renews_migrate :
    Renews nowMs keys (keys.migrateLegacyCompletedDeliveryMarkers nowMs) := by
  unfold ClaimKeys.migrateLegacyCompletedDeliveryMarkers
  split
  · exact renews_convertLegacy
  · exact renews_claim _

theorem claim_migrate :
    (keys.migrateLegacyCompletedDeliveryMarkers nowMs).claim = keys.claim := by
  unfold ClaimKeys.migrateLegacyCompletedDeliveryMarkers
  split
  · rfl
  · rfl

theorem renews_complete (token : String) (ttlMs : Int) :
    Renews nowMs keys (keys.completeScript nowMs token ttlMs) :=
  ⟨.inr ⟨_, rfl, Int.add_le_add_left (le_max_left _ _) _⟩, .inr rfl⟩

end Scripts

/-- Every delivery so far was answered and persisted its marker before its claim elapsed,
or has not given up its claim and still can. -/
def InTime (s : Store) : Prop :=
  ∀ d ∈ s.deliveries, d.abandoned = false ∧ d.postedAt ≤ d.deadline ∧
    d.completedAt.getD s.nowMs ≤ d.deadline

def Retired (d : Delivery) (nowMs : Int) : Prop :=
  ∃ completedAt, d.completedAt = some completedAt ∧
    completedAt + minCompletedDeliveryTtlMs < nowMs

def Spaced (deliveries : List Delivery) : Prop :=
  deliveries.Pairwise fun later earlier => Retired earlier later.postedAt

abbrev Duties := Nat → Option (String × Phase)

structure Tokens (s : Store) (duties : Duties) : Prop where
  drawn : ∀ i tag phase token, duties i = some (tag, phase) → phase.token = some token →
    token ∈ s.tokens ∧ tag = token
  unique : ∀ i j tag tag' phase phase' token, duties i = some (tag, phase) →
    duties j = some (tag', phase') → phase.token = some token → phase'.token = some token → i = j

structure Stored (s : Store) : Prop where
  spaced : Spaced s.deliveries
  pending : ∀ d ∈ s.deliveries, d.completedAt = none →
    s.keys.claim = some (d.token, d.deadline)
  marked : ∀ d ∈ s.deliveries, ∀ completedAt, d.completedAt = some completedAt →
    completedAt ≤ s.nowMs ∧ ∃ expiry, s.keys.completed = some expiry ∧
      completedAt + minCompletedDeliveryTtlMs ≤ expiry

def Ready (s : Store) (token : String) : Prop :=
  ∃ deadline, s.granted token = some deadline ∧ (s.nowMs ≤ deadline →
    s.keys.claim = some (token, deadline) ∧ ∀ d ∈ s.deliveries, Retired d s.nowMs)

structure Core (s : Store) (duties : Duties) : Prop where
  stored : Stored s
  ready : ∀ i tag token, duties i = some (tag, .claimed token) → Ready s token

def Invariant (s : Store) (duties : Duties) : Prop :=
  Tokens s duties ∧ (InTime s → Core s duties)

section Steps
variable {s after : Store} {duties : Duties} {i : Nat} {tag token : String} {phase : Phase}

theorem Retired.mono {d : Delivery} {earlier later : Int} (retired : Retired d earlier)
    (le : earlier ≤ later) : Retired d later := by
  obtain ⟨completedAt, completed, ended⟩ := retired
  exact ⟨completedAt, completed, lt_of_lt_of_le ended le⟩

theorem tokens_phase {next : Phase} (tokens : Tokens s duties)
    (held : duties i = some (tag, phase)) (same : next.token = phase.token) :
    Tokens s (setDuty duties i (some (tag, next))) := by
  have old : ∀ j tag' phase', setDuty duties i (some (tag, next)) j = some (tag', phase') →
      ∃ before, duties j = some (tag', before) ∧ before.token = phase'.token := by
    intro j tag' phase' here
    unfold setDuty at here
    split at here
    next at_i =>
      cases here
      exact ⟨phase, at_i ▸ held, same.symm⟩
    · exact ⟨phase', here, rfl⟩
  constructor
  · intro j tag' phase' token' here named
    obtain ⟨before, earlier, same⟩ := old j tag' phase' here
    exact tokens.drawn j tag' before token' earlier (same.trans named)
  · intro j k tag' tag'' phase' phase'' token' first second named named'
    obtain ⟨before, earlier, same⟩ := old j tag' phase' first
    obtain ⟨before', earlier', same'⟩ := old k tag'' phase'' second
    exact tokens.unique j k tag' tag'' before before' token' earlier earlier' (same.trans named)
      (same'.trans named')

theorem tokens_store (tokens : Tokens s duties) (same : after.tokens = s.tokens) :
    Tokens after duties :=
  ⟨fun j tag' phase' token' here named => same ▸ tokens.drawn j tag' phase' token' here named,
    tokens.unique⟩

theorem tokens_draw (tokens : Tokens s duties) (fresh : tag ∉ s.tokens) :
    Tokens (s.draw tag) (setDuty duties i (some (tag, .drawn tag))) := by
  constructor
  · intro j tag' phase' token' here named
    unfold setDuty at here
    split at here
    · cases here
      cases named
      exact ⟨List.mem_cons_self, rfl⟩
    · obtain ⟨drawn, same⟩ := tokens.drawn j tag' phase' token' here named
      exact ⟨List.mem_cons_of_mem _ drawn, same⟩
  · intro j k tag' tag'' phase' phase'' token' first second named named'
    unfold setDuty at first second
    split at first
    next at_i =>
      split at second
      next at_i' => exact at_i.trans at_i'.symm
      · cases first
        cases named
        exact absurd (tokens.drawn k tag'' phase'' tag second named').1 fresh
    · split at second
      · cases second
        cases named'
        exact absurd (tokens.drawn j tag' phase' tag first named).1 fresh
      · exact tokens.unique j k tag' tag'' phase' phase'' token' first second named named'

variable {duty : Option (String × Phase)}

theorem core_phase (core : Core s duties) (idle : ∀ tag token, duty ≠ some (tag, .claimed token)) :
    Core s (setDuty duties i duty) := by
  refine ⟨core.stored, fun j tag' token' here => ?_⟩
  unfold setDuty at here
  split at here
  · exact absurd here (idle tag' token')
  · exact core.ready j tag' token' here

variable {keys : ClaimKeys}

theorem stored_keys (stored : Stored s) (claim : keys.claim = s.keys.claim)
    (renews : Renews s.nowMs s.keys keys) : Stored { s with keys := keys } := by
  refine ⟨stored.spaced, fun d mem open' => claim.trans (stored.pending d mem open'), ?_⟩
  intro d mem completedAt completed
  obtain ⟨past, expiry, marked, covers⟩ := stored.marked d mem completedAt completed
  refine ⟨past, ?_⟩
  rcases renews.marker with same | ⟨renewed, set, later⟩
  · exact ⟨expiry, same.trans marked, covers⟩
  · exact ⟨renewed, set, by omega⟩

theorem ready_keys (ready : Ready s token)
    (claim : keys.claim = s.keys.claim) : Ready { s with keys := keys } token := by
  obtain ⟨deadline, granted, owns⟩ := ready
  exact ⟨deadline, granted, fun live => ⟨claim.trans (owns live).1, (owns live).2⟩⟩

theorem retired_of_free (stored : Stored s) (inTime : InTime s)
    (unmarked : keyExists s.nowMs s.keys.completed = false) (free : s.keys.owner s.nowMs = none) :
    ∀ d ∈ s.deliveries, Retired d s.nowMs := by
  intro d mem
  cases completed : d.completedAt with
  | none =>
    have live : s.nowMs ≤ d.deadline := by simpa [completed] using (inTime d mem).2.2
    have owned := owner_of_live (stored.pending d mem completed) live
    rw [free] at owned
    cases owned
  | some completedAt =>
    obtain ⟨-, expiry, marked, covers⟩ := stored.marked d mem completedAt completed
    have expired : expiry < s.nowMs := by simpa [keyExists, marked] using unmarked
    exact ⟨completedAt, completed, lt_of_le_of_lt covers expired⟩

variable {ttlMs : Int}

theorem claim_refused
    (refused : (s.keys.claimScript s.nowMs token ttlMs).1 ≠ .claimed) :
    s.claim token ttlMs = { s with keys := (s.keys.claimScript s.nowMs token ttlMs).2 } := by
  unfold Store.claim
  dsimp only
  congr 1
  funext other
  exact if_neg fun granted => refused granted.1

theorem stored_claim (stored : Stored s) (inTime : InTime s) (token : String) (ttlMs : Int) :
    Stored (s.claim token ttlMs) := by
  rcases claimScript_cases s.keys s.nowMs token ttlMs with
    ⟨script, unmarked, -, free⟩ | ⟨refused, claim, renews⟩
  · have retired := retired_of_free stored inTime unmarked free
    have keys : (s.claim token ttlMs).keys =
        { s.keys with claim := some (token, s.nowMs + max 1000 ttlMs) } :=
      congrArg Prod.snd script
    refine ⟨stored.spaced, fun d mem open' => ?_, fun d mem completedAt completed => ?_⟩
    · obtain ⟨completedAt, completed, -⟩ := retired d mem
      exact absurd (completed.symm.trans open') nofun
    · rw [keys]
      exact stored.marked d mem completedAt completed
  · rw [claim_refused refused]
    exact stored_keys stored claim renews

variable {other : String}

theorem ready_claim (ready : Ready s other) (different : other ≠ token)
    (ttlMs : Int) : Ready (s.claim token ttlMs) other := by
  obtain ⟨deadline, granted, owns⟩ := ready
  refine ⟨deadline, ?_, fun live => ?_⟩
  · exact (if_neg fun same => different same.2).trans granted
  · change s.nowMs ≤ deadline at live
    obtain ⟨claim, retired⟩ := owns live
    refine ⟨?_, retired⟩
    rcases claimScript_cases s.keys s.nowMs token ttlMs with ⟨-, -, -, free⟩ | ⟨-, same, -⟩
    · rw [owner_of_live claim live] at free
      cases free
    · exact same.trans claim

theorem ready_granted (stored : Stored s) (inTime : InTime s)
    (granted : (s.keys.claimScript s.nowMs token ttlMs).1 = .claimed) :
    Ready (s.claim token ttlMs) token := by
  rcases claimScript_cases s.keys s.nowMs token ttlMs with
    ⟨script, unmarked, -, free⟩ | ⟨refused, -⟩
  · have retired := retired_of_free stored inTime unmarked free
    refine ⟨_, if_pos ⟨granted, rfl⟩, fun _ => ⟨?_, retired⟩⟩
    change (s.keys.claimScript s.nowMs token ttlMs).2.claim = _
    rw [script]
  · exact absurd granted refused

theorem core_claim (core : Core s duties) (tokens : Tokens s duties) (inTime : InTime s)
    (held : duties i = some (tag, .drawn token)) (ttlMs : Int) :
    Core (s.claim token ttlMs) duties := by
  refine ⟨stored_claim core.stored inTime token ttlMs, fun j tag' other here => ?_⟩
  apply ready_claim (core.ready j tag' other here)
  rintro rfl
  have same : i = j := tokens.unique i j tag tag' _ _ other held here rfl rfl
  rw [same, here] at held
  cases held

variable {deliveries : List Delivery}

theorem ready_drop (ready : Ready s other) (different : token ≠ other)
    (claim : keys.claim = s.keys.dropClaim s.nowMs token)
    (same : (∀ d ∈ s.deliveries, Retired d s.nowMs) → deliveries = s.deliveries) :
    Ready { s with keys := keys, deliveries := deliveries } other := by
  obtain ⟨deadline, granted, owns⟩ := ready
  refine ⟨deadline, granted, fun live => ?_⟩
  obtain ⟨owned, retired⟩ := owns live
  refine ⟨?_, ?_⟩
  · exact claim.trans ((dropClaim_other owned different).trans owned)
  · change ∀ d ∈ deliveries, Retired d s.nowMs
    rw [same retired]
    exact retired

theorem not_open {d : Delivery} {completedAt : Int} (completed : d.completedAt = some completedAt) :
    ¬ (d.token = token ∧ d.completedAt = none) := by
  rintro ⟨-, open'⟩
  rw [completed] at open'
  cases open'

variable {nowMs : Int}

theorem map_retired {update : Delivery → Delivery} (retired : ∀ d ∈ deliveries, Retired d nowMs) :
    (deliveries.map fun d =>
      if d.token = token ∧ d.completedAt = none then update d else d) = deliveries := by
  conv_rhs => rw [← List.map_id deliveries]
  apply List.map_congr_left
  intro d mem
  obtain ⟨completedAt, completed, -⟩ := retired d mem
  exact if_neg (not_open completed)

theorem other_token (tokens : Tokens s duties) (held : duties i = some (tag, phase))
    (holding : phase.token = some token) {j : Nat} {tag' : String} {duty : String × Phase}
    (here : setDuty duties i (some duty) j = some (tag', .claimed other))
    (inert : ∀ other, duty.2 ≠ .claimed other) :
    token ≠ other ∧ duties j = some (tag', .claimed other) := by
  unfold setDuty at here
  split at here
  · cases here
    exact absurd rfl (inert other)
  next different =>
    refine ⟨?_, here⟩
    rintro rfl
    exact different (tokens.unique i j tag tag' phase _ token held here holding rfl).symm

theorem token_of_holder (holding : phase.holder = some token) : phase.token = some token := by
  cases phase <;> first | exact holding | cases holding

theorem core_complete (core : Core s duties) (tokens : Tokens s duties)
    (held : duties i = some (tag, phase)) (holding : phase.holder = some token) (ttlMs : Int) :
    Core (s.complete token ttlMs) (setDuty duties i (some (tag, .closed token))) := by
  refine ⟨⟨?_, ?_, ?_⟩, ?_⟩
  · change Spaced (List.map _ _)
    unfold Spaced
    rw [List.pairwise_map]
    apply core.stored.spaced.imp
    rintro later earlier ⟨completedAt, completed, ended⟩
    refine ⟨completedAt, ?_, ?_⟩
    · rw [if_neg (not_open completed)]
      exact completed
    · split
      · exact ended
      · exact ended
  · intro d mem open'
    obtain ⟨before, present, rfl⟩ := List.mem_map.mp mem
    split at open'
    · cases open'
    next kept =>
      rw [if_neg kept]
      have claim := core.stored.pending before present open'
      have other : token ≠ before.token := fun same => kept ⟨same.symm, open'⟩
      exact (dropClaim_other claim other).trans claim
  · intro d mem completedAt completed
    obtain ⟨before, present, rfl⟩ := List.mem_map.mp mem
    have covers : s.nowMs + minCompletedDeliveryTtlMs ≤
        s.nowMs + normalizeCompletedDeliveryTtlMs ttlMs :=
      Int.add_le_add_left (le_max_left _ _) _
    split at completed
    · cases completed
      exact ⟨le_refl _, _, rfl, covers⟩
    · obtain ⟨past, -⟩ := core.stored.marked before present completedAt completed
      exact ⟨past, _, rfl, by omega⟩
  · intro j tag' other here
    obtain ⟨different, there⟩ := other_token tokens held (token_of_holder holding) here
      fun _ => nofun
    exact ready_drop (core.ready j tag' other there) different rfl map_retired

theorem release_deliveries (inTime : InTime (s.release token)) :
    (s.release token).deliveries = s.deliveries := by
  unfold Store.release
  conv_rhs => rw [← List.map_id s.deliveries]
  apply List.map_congr_left
  intro d mem
  apply if_neg
  intro given
  have kept := (inTime _ (List.mem_map_of_mem mem)).1
  rw [if_pos given] at kept
  cases kept

theorem core_release (core : Core s duties) (tokens : Tokens s duties)
    (held : duties i = some (tag, phase)) (holding : phase.holder = some token)
    (inTime : InTime (s.release token)) :
    Core (s.release token) (setDuty duties i (some (tag, .closed token))) := by
  have same := release_deliveries inTime
  refine ⟨⟨?_, ?_, ?_⟩, ?_⟩
  · rw [same]
    exact core.stored.spaced
  · intro d mem open'
    have kept : d ∈ s.deliveries := same ▸ mem
    have claim := core.stored.pending d kept open'
    have other : token ≠ d.token := by
      rintro rfl
      have abandoned := (inTime _ (List.mem_map_of_mem kept)).1
      rw [if_pos ⟨rfl, open'⟩] at abandoned
      cases abandoned
    exact (dropClaim_other claim other).trans claim
  · rw [same]
    exact core.stored.marked
  · intro j tag' other here
    obtain ⟨different, there⟩ := other_token tokens held (token_of_holder holding) here
      fun _ => nofun
    exact ready_drop (core.ready j tag' other there) different rfl fun _ => same

theorem core_deliver (core : Core s duties) (tokens : Tokens s duties)
    (held : duties i = some (tag, .claimed tag)) (inTime : InTime (s.deliver tag)) :
    Core (s.deliver tag) (setDuty duties i (some (tag, .posted tag))) := by
  obtain ⟨deadline, granted, owns⟩ := core.ready i tag tag held
  have until' : (s.granted tag).getD s.nowMs = deadline := by rw [granted]; rfl
  have live : s.nowMs ≤ deadline := until' ▸ (inTime _ List.mem_cons_self).2.1
  obtain ⟨claim, retired⟩ := owns live
  refine ⟨⟨?_, ?_, ?_⟩, ?_⟩
  · exact List.pairwise_cons.mpr ⟨retired, core.stored.spaced⟩
  · intro d mem open'
    rcases List.mem_cons.mp mem with rfl | old
    · exact until'.symm ▸ claim
    · exact core.stored.pending d old open'
  · intro d mem completedAt completed
    rcases List.mem_cons.mp mem with rfl | old
    · cases completed
    · exact core.stored.marked d old completedAt completed
  · intro j tag' other here
    obtain ⟨different, there⟩ := other_token tokens held rfl here fun _ => nofun
    obtain ⟨deadline', granted', owns'⟩ := core.ready j tag' other there
    refine ⟨deadline', granted', fun live' => ?_⟩
    have owned := claim.symm.trans (owns' live').1
    cases owned
    exact absurd rfl different

theorem inTime_complete (inTime : InTime (s.complete token ttlMs)) : InTime s := by
  intro d mem
  have kept := inTime _ (List.mem_map_of_mem mem)
  split at kept
  next given => simpa [given.2] using kept
  · exact kept

theorem inTime_release (inTime : InTime (s.release token)) : InTime s := by
  unfold InTime at inTime
  rw [release_deliveries inTime] at inTime
  exact inTime

theorem inTime_deliver (inTime : InTime (s.deliver tag)) : InTime s :=
  fun d mem => inTime d (List.mem_cons_of_mem _ mem)

theorem inTime_tick (later : s.nowMs ≤ nowMs)
    (inTime : InTime { s with nowMs := nowMs }) : InTime s := by
  intro d mem
  obtain ⟨kept, answered, ended⟩ := inTime d mem
  refine ⟨kept, answered, le_trans ?_ ended⟩
  cases d.completedAt with
  | none => exact later
  | some completedAt => exact le_refl _

theorem invariant_rest {next : Phase} (inv : Invariant s duties)
    (held : duties i = some (tag, phase)) (same : next.token = phase.token)
    (inert : ∀ token, next ≠ .claimed token) :
    Invariant s (setDuty duties i (some (tag, next))) := by
  refine ⟨tokens_phase inv.1 held same, fun inTime => ?_⟩
  apply core_phase (inv.2 inTime)
  rintro _ token ⟨rfl⟩
  exact inert token rfl

theorem invariant_claim (inv : Invariant s duties) (held : duties i = some (tag, .drawn token))
    (ttlMs : Int) : Invariant (s.claim token ttlMs) duties :=
  ⟨tokens_store inv.1 rfl, fun inTime => core_claim (inv.2 inTime) inv.1 inTime held ttlMs⟩

theorem setDuty_same (held : duties i = duty) : setDuty duties i duty = duties := by
  funext j
  unfold setDuty
  split
  next same => rw [same, held]
  · rfl

theorem invariant_granted (inv : Invariant s duties) (held : duties i = some (tag, .drawn token))
    (granted : (s.keys.claimScript s.nowMs token ttlMs).1 = .claimed) :
    Invariant (s.claim token ttlMs) (setDuty duties i (some (tag, .claimed token))) := by
  refine ⟨tokens_phase (tokens_store inv.1 rfl) held rfl, fun inTime => ?_⟩
  have core := (invariant_claim inv held ttlMs).2 inTime
  refine ⟨core.stored, fun j tag' other here => ?_⟩
  unfold setDuty at here
  split at here
  · cases here
    exact ready_granted (inv.2 inTime).stored inTime granted
  · exact core.ready j tag' other here

theorem post_of_claimed {jobId url body : String} {headers : List (String × String)}
    {startedAt : Int} (tokens : Tokens s duties) (held : duties i = some (tag, phase))
    (allowed : phase.allows jobId (.request url headers body startedAt)) :
    phase = .claimed tag ∧
      ∀ reply, phase.after (.request url headers body startedAt) reply = .posted tag := by
  obtain ⟨token, rfl⟩ := allowed
  obtain ⟨-, rfl⟩ := tokens.drawn i tag _ token held rfl
  exact ⟨rfl, fun _ => rfl⟩

theorem invariant_call {jobId : String} (inv : Invariant s duties) {c : Call} {reply : Reply c}
    (held : duties i = some (tag, phase)) (allowed : phase.allows jobId c)
    (effect : Effect jobId tag c s reply after) :
    Invariant after (setDuty duties i (some (tag, phase.after c reply))) := by
  cases effect with
  | randomUUID fresh =>
    refine ⟨tokens_draw inv.1 fresh, fun inTime => ?_⟩
    have core : Core s (setDuty duties i (some (tag, .drawn tag))) :=
      core_phase (inv.2 inTime) fun _ _ => nofun
    exact ⟨⟨core.stored.spaced, core.stored.pending, core.stored.marked⟩, core.ready⟩
  | @claim claimToken ttlMs _ =>
    obtain ⟨-, rfl⟩ := allowed
    by_cases granted : (s.keys.claimScript s.nowMs claimToken ttlMs).1 = .claimed
    · have moved : Phase.after (.drawn claimToken) (.claim jobId claimToken ttlMs)
          (.ok (s.keys.claimScript s.nowMs claimToken ttlMs).1) = .claimed claimToken := by
        rw [granted]; rfl
      rw [moved]
      exact invariant_granted inv held granted
    · have stays : Phase.after (.drawn claimToken) (.claim jobId claimToken ttlMs)
          (.ok (s.keys.claimScript s.nowMs claimToken ttlMs).1) = .drawn claimToken := by
        revert granted
        cases (s.keys.claimScript s.nowMs claimToken ttlMs).1 with
        | claimed => exact fun granted => absurd rfl granted
        | completed => exact fun _ => rfl
        | inFlight => exact fun _ => rfl
      rw [stays, setDuty_same held]
      exact invariant_claim inv held ttlMs
  | claimLost =>
    obtain ⟨-, rfl⟩ := allowed
    change Invariant _ (setDuty duties i (some (tag, .drawn _)))
    rw [setDuty_same held]
    exact invariant_claim inv held _
  | claimRefused =>
    obtain ⟨-, rfl⟩ := allowed
    change Invariant _ (setDuty duties i (some (tag, .drawn _)))
    rwa [setDuty_same held]
  | complete =>
    refine ⟨tokens_phase (tokens_store inv.1 rfl) held (token_of_holder allowed.2).symm, ?_⟩
    exact fun inTime => core_complete (inv.2 (inTime_complete inTime)) inv.1 held allowed.2 _
  | completeRefused =>
    exact invariant_rest inv held (token_of_holder allowed.2).symm fun _ => nofun
  | release =>
    refine ⟨tokens_phase (tokens_store inv.1 rfl) held (token_of_holder allowed.2).symm, ?_⟩
    exact fun inTime => core_release (inv.2 (inTime_release inTime)) inv.1 held allowed.2 inTime
  | releaseRefused =>
    exact invariant_rest inv held (token_of_holder allowed.2).symm fun _ => nofun
  | delivered success =>
    obtain ⟨rfl, moved⟩ := post_of_claimed inv.1 held allowed
    rw [moved]
    refine ⟨tokens_phase (tokens_store inv.1 rfl) held rfl, fun inTime => ?_⟩
    exact core_deliver (inv.2 (inTime_deliver inTime)) inv.1 held inTime
  | rejected failure =>
    obtain ⟨rfl, moved⟩ := post_of_claimed inv.1 held allowed
    rw [moved]
    exact invariant_rest inv held rfl fun _ => nofun
  | elsewhere outside =>
    have stays : phase.after c reply = phase := by
      cases c <;> first
        | rfl
        | cases outside
    rwa [stays, setDuty_same held]

theorem invariant_tick (inv : Invariant s duties) (later : s.nowMs ≤ nowMs) :
    Invariant { s with nowMs := nowMs } duties := by
  refine ⟨tokens_store inv.1 rfl, fun inTime => ?_⟩
  have core := inv.2 (inTime_tick later inTime)
  refine ⟨⟨core.stored.spaced, core.stored.pending, ?_⟩, fun j tag' other here => ?_⟩
  · intro d mem completedAt completed
    obtain ⟨past, marked⟩ := core.stored.marked d mem completedAt completed
    exact ⟨le_trans past later, marked⟩
  · obtain ⟨deadline, granted, owns⟩ := core.ready j tag' other here
    refine ⟨deadline, granted, fun live => ?_⟩
    obtain ⟨claim, retired⟩ := owns (le_trans later live)
    exact ⟨claim, fun d mem => (retired d mem).mono later⟩

theorem invariant_migrate (inv : Invariant s duties) :
    Invariant { s with keys := s.keys.migrateLegacyCompletedDeliveryMarkers s.nowMs } duties := by
  refine ⟨tokens_store inv.1 rfl, fun inTime => ?_⟩
  have core := inv.2 inTime
  refine ⟨stored_keys core.stored claim_migrate renews_migrate, fun j tag' other here => ?_⟩
  exact ready_keys (core.ready j tag' other here) claim_migrate

theorem invariant_stop (inv : Invariant s duties) : Invariant s (setDuty duties i none) := by
  refine ⟨⟨?_, ?_⟩, fun inTime => core_phase (inv.2 inTime) fun _ _ => nofun⟩
  · exact fun j tag' phase' token' here named =>
      inv.1.drawn j tag' phase' token' (of_setDuty_none here) named
  · exact fun j k tag' tag'' phase' phase'' token' first second named named' =>
      inv.1.unique j k tag' tag'' phase' phase'' token' (of_setDuty_none first)
        (of_setDuty_none second) named named'

theorem invariant_start (inv : Invariant s duties) (tag : String) :
    Invariant s (setDuty duties i (some (tag, .idle))) := by
  have old : ∀ j tag' phase' token', setDuty duties i (some (tag, .idle)) j = some (tag', phase') →
      phase'.token = some token' → duties j = some (tag', phase') := by
    intro j tag' phase' token' here named
    unfold setDuty at here
    split at here
    · cases here
      cases named
    · exact here
  refine ⟨⟨?_, ?_⟩, fun inTime => core_phase (inv.2 inTime) fun _ _ => nofun⟩
  · exact fun j tag' phase' token' here named =>
      inv.1.drawn j tag' phase' token' (old j _ _ _ here named) named
  · exact fun j k tag' tag'' phase' phase'' token' first second named named' =>
      inv.1.unique j k tag' tag'' phase' phase'' token' (old j _ _ _ first named)
        (old k _ _ _ second named') named named'

end Steps

theorem preserves_invariant (env : Environment) (cfg : Config) (jobId : String) :
    Preserves (claimSystem env cfg jobId) always (progress jobId) Invariant where
  call _ _ _ _ _ _ _ _ inv held allowed effect := invariant_call inv held allowed effect
  stop _ _ _ inv := invariant_stop inv
  start pool duties i worker _ inv _ starts := by
    cases starts with
    | process tag messageId same =>
      subst same
      exact ⟨.idle, obeys_processJob env cfg messageId _, invariant_start inv tag⟩
  act _ _ _ _ _ inv acts := by
    cases acts with
    | tick later => exact invariant_tick inv later
    | migrate => exact invariant_migrate inv

theorem invariant_initial (nowMs : Int) (completed legacyCompleted : Option Int) :
    Invariant (.initial nowMs completed legacyCompleted) fun _ => none :=
  ⟨⟨nofun, nofun⟩, fun _ => ⟨⟨List.Pairwise.nil, nofun, nofun⟩, nofun⟩⟩

structure Sheltered (first : Store) (s : Store) : Prop where
  time : first.nowMs ≤ s.nowMs
  marker : ∀ expiry, s.keys.completed = some expiry →
    first.nowMs + minCompletedDeliveryTtlMs ≤ expiry ∨
      ∃ before, first.keys.completed = some before ∧ before ≤ expiry
  legacy : s.keys.legacyCompleted = first.keys.legacyCompleted ∨ s.keys.completed.isSome

theorem sheltered_refl (s : Store) : Sheltered s s :=
  ⟨le_refl _, fun expiry marked => .inr ⟨expiry, marked, le_refl _⟩, .inl rfl⟩

theorem sheltered_renews {first s after : Store} (sheltered : Sheltered first s)
    (time : after.nowMs = s.nowMs) (renews : Renews s.nowMs s.keys after.keys) :
    Sheltered first after := by
  have earlier := sheltered.time
  refine ⟨time ▸ earlier, fun expiry marked => ?_, ?_⟩
  · rcases renews.marker with same | ⟨renewed, set, covers⟩
    · exact sheltered.marker expiry (same ▸ marked)
    · cases set.symm.trans marked
      exact .inl (by omega)
  · rcases renews.legacy with same | marked
    · rcases sheltered.legacy with kept | marked
      · exact .inl (same.trans kept)
      · rcases renews.marker with same | ⟨renewed, set, -⟩
        · exact .inr (same ▸ marked)
        · exact .inr (set ▸ rfl)
    · exact .inr marked

theorem renews_effect {jobId tag : String} {c : Call} {s after : Store} {reply : Reply c}
    (effect : Effect jobId tag c s reply after) :
    after.nowMs = s.nowMs ∧ Renews s.nowMs s.keys after.keys := by
  have claims : ∀ token ttlMs, Renews s.nowMs s.keys (s.claim token ttlMs).keys := by
    intro token ttlMs
    rcases claimScript_cases s.keys s.nowMs token ttlMs with ⟨script, -⟩ | ⟨-, -, renews⟩
    · change Renews _ _ (s.keys.claimScript s.nowMs token ttlMs).2
      rw [script]
      exact renews_claim _
    · exact renews
  cases effect with
  | claim | claimLost => exact ⟨rfl, claims _ _⟩
  | complete => exact ⟨rfl, renews_complete _ _⟩
  | randomUUID _ | claimRefused | completeRefused | release | releaseRefused | delivered _
  | rejected _ | elsewhere _ => exact ⟨rfl, renews_claim _⟩

theorem sheltered_run {env : Environment} {cfg : Config} {jobId : String}
    {pool later : Pool Store String Call Reply Failure Unit}
    (run : Reaches (Step (claimSystem env cfg jobId)) always pool later) :
    Sheltered pool.shared later.shared := by
  apply run.invariant (I := fun reached => Sheltered pool.shared reached.shared)
  · intro before label after sheltered _ step
    cases step with
    | call _ performs =>
      obtain ⟨time, renews⟩ := renews_effect performs
      exact sheltered_renews sheltered time renews
    | stop | start => exact sheltered
    | act acted =>
      cases acted with
      | tick passes => exact ⟨le_trans sheltered.time passes, sheltered.marker, sheltered.legacy⟩
      | migrate => exact sheltered_renews sheltered rfl renews_migrate
  · exact sheltered_refl _

theorem unmarked_of_granted {keys : ClaimKeys} {nowMs : Int} {token : String} {ttlMs : Int}
    (granted : (keys.claimScript nowMs token ttlMs).1 = .claimed) :
    (∀ expiry, keys.completed = some expiry → expiry < nowMs) ∧
      ∀ expiry, keys.legacyCompleted = some expiry → expiry < nowMs := by
  rcases claimScript_cases keys nowMs token ttlMs with ⟨-, unmarked, unmarkedLegacy, -⟩ | ⟨refused, -⟩
  · refine ⟨fun expiry marked => ?_, fun expiry marked => ?_⟩
    · simpa [keyExists, marked] using unmarked
    · simpa [keyExists, marked] using unmarkedLegacy
  · exact absurd granted refused

/-- The claim on a job whose legacy marker was live finds that marker expired, or the
completed marker it was converted to or merged with. -/
def LegacyProtects (first later : Store) : Prop :=
  ∀ legacyUntil, first.keys.legacyCompleted = some legacyUntil →
    ∀ token ttlMs, (later.keys.claimScript later.nowMs token ttlMs).1 = .claimed →
      legacyUntil < later.nowMs ∨ ∃ expiry, later.keys.completed = some expiry ∧
        expiry < later.nowMs ∧ (first.nowMs + minCompletedDeliveryTtlMs ≤ expiry ∨
          ∃ before, first.keys.completed = some before ∧ before ≤ expiry)

theorem legacyProtects_of_sheltered {first later : Store} (sheltered : Sheltered first later) :
    LegacyProtects first later := by
  intro legacyUntil legacy token ttlMs granted
  obtain ⟨expired, expiredLegacy⟩ := unmarked_of_granted granted
  rcases sheltered.legacy with kept | marked
  · exact .inl (expiredLegacy legacyUntil (kept.trans legacy))
  · obtain ⟨expiry, marked⟩ := Option.isSome_iff_exists.mp marked
    exact .inr ⟨expiry, marked, expired expiry marked, sheltered.marker expiry marked⟩

def OwnerProtected (s : Store) : Prop :=
  ∀ owner expiry token ttlMs, s.keys.claim = some (owner, expiry) → token ≠ owner →
    (s.keys.completeScript s.nowMs token ttlMs).claim = s.keys.claim ∧
      (s.keys.releaseScript s.nowMs token).claim = s.keys.claim

theorem ownerProtected (s : Store) : OwnerProtected s :=
  fun _ _ _ _ held other => ⟨dropClaim_other held other, dropClaim_other held other⟩

abbrev sampleSystem := claimSystem OneDisposition.plainEnvironment OneDisposition.plainConfig
  OneDisposition.deliverableJob.jobId

def marked : Store := .initial 0 none (some 86400000)

def converted : Store :=
  { marked with keys := marked.keys.migrateLegacyCompletedDeliveryMarkers marked.nowMs }

theorem reaches_converted :
    Reaches (Step sampleSystem) always (Pool.idle marked) (Pool.idle converted) :=
  Reaches.refl.tail (e := .act .migrate) trivial (.act .migrate)

def expired : Store := { converted with nowMs := 691200001 }

theorem reaches_expired :
    Reaches (Step sampleSystem) always (Pool.idle converted) (Pool.idle expired) :=
  Reaches.refl.tail (e := .act .tick) trivial (.act (.tick (by decide)))

theorem attempt_claims :
    attemptJob OneDisposition.plainEnvironment OneDisposition.plainConfig "1-0" "token" 1
        OneDisposition.deliverableJob =
      claimAndProcess OneDisposition.plainEnvironment OneDisposition.plainConfig "1-0" "token"
        OneDisposition.deliverableJob := by
  have within : residenceError "" (queueResidenceMs OneDisposition.deliverableJob
      (syntheticDirectTestMessage OneDisposition.plainEnvironment "1-0") 1) = none := by
    decide +kernel
  unfold attemptJob
  rw [within]
  rfl

theorem reaches_claimed : ∃ program, Reaches (Step sampleSystem) always (Pool.idle converted)
    (Pool.single ((expired.draw "token").claim "token" 120000) "token" program) := by
  have starts : Starts OneDisposition.plainEnvironment OneDisposition.plainConfig
      OneDisposition.deliverableJob.jobId expired _ :=
    @Starts.process _ _ _ _ OneDisposition.deliverableJob "token" "1-0" rfl
  have started := reaches_start reaches_expired trivial starts
  have read := reaches_call started trivial (@Effect.elsewhere _ _ .now _ (1 : Int) rfl)
  have drawn := reaches_call read trivial (@Effect.randomUUID _ "token" _ nofun)
  change Reaches (Step sampleSystem) always (Pool.idle converted) (Pool.single _ _
    (Prog.rescue (attemptJob OneDisposition.plainEnvironment OneDisposition.plainConfig "1-0"
      "token" 1 OneDisposition.deliverableJob) _)) at drawn
  rw [attempt_claims] at drawn
  exact ⟨_, reaches_call drawn trivial (@Effect.claim _ "token" "token" 120000 _)⟩

end MastopodFederation.Guarantees.SingleDelivery
