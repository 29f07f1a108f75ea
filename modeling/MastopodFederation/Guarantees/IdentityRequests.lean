import MastopodFederation.Guarantees.IdentityIndexes

/-!
# The calls of the identity service

Which commands createIdentityBinding and provisionAtprotoIdentity make, and in what order: they look
up what they are given, read the account once more and then write. A provision removes the index
entries of the binding before it writes the new one.
-/
namespace MastopodFederation.Guarantees.IdentityRequests
open Lib.Calls Lib.WorkerPool Source.IdentityBindings IdentityIndexes

def accountOf : ServiceCall → String
  | .create request _ => request.canonicalAccountId
  | .provision request _ _ => request.canonicalAccountId

inductive Stage where
  | begun
  /-- an identifier is looked up -/
  | searching (index : Index) (key : String) (next : Option IdentityBinding)
  /-- the entry of the identifier leads to this account -/
  | found (index : Index) (key : String) (next : Option IdentityBinding) (accountId : String)
  /-- the account is read once more -/
  | checked (binding : IdentityBinding)
  /-- the index entries of the old binding are removed -/
  | replacing (binding old : IdentityBinding)
  | writing (binding : IdentityBinding)
  | finished
  deriving DecidableEq

section Monitor
variable (env : Environment)

def renewal (request : ProvisionAtprotoIdentityRequest) (commitKeyRef rotationKeyRef : String)
    (binding : IdentityBinding) : Option IdentityBinding :=
  (provisioned env binding request commitKeyRef rotationKeyRef).filter (·.validate = [])

def isProvisioned (binding : IdentityBinding) : Bool :=
  (truthy binding.atprotoDid).isSome && binding.canonicalDidMethod.isSome

def looked (call : ServiceCall) (stored : Option IdentityBinding) : Stage :=
  match call, stored with
  | .create request apSigningKeyRef, none =>
    .searching .actor request.activityPubActorUri (some (bindingOf request apSigningKeyRef))
  | .provision request commitKeyRef rotationKeyRef, some binding =>
    if isProvisioned binding then .finished
    else .searching .handle (env.toLowerCase request.atprotoHandle)
      (renewal env request commitKeyRef rotationKeyRef binding)
  | _, _ => .finished

def settled (call : ServiceCall) (index : Index) (next : Option IdentityBinding) : Stage :=
  match call, index, next with
  | .create request _, .actor, next => .searching .webId request.webId next
  | _, _, some binding => .checked binding
  | _, _, none => .finished

def met (call : ServiceCall) (index : Index) (next stored : Option IdentityBinding) : Stage :=
  match call, stored with
  | _, none => settled call index next
  | .create .., some _ => .finished
  | .provision request _ _, some existing =>
    if existing.canonicalAccountId = request.canonicalAccountId then settled call index next else .finished

abbrev Duty := ServiceCall × Stage

def Duty.allows : Duty → Call → Prop
  | (call, .begun), .get accountId => accountId = accountOf call
  | (_, .searching index key _), .getIndex index' key' => index' = index ∧ key' = key
  | (_, .found _ _ _ accountId), .get accountId' => accountId' = accountId
  | (.create .., .checked binding), .existsBinding accountId =>
    accountId = binding.canonicalAccountId
  | (.provision .., .checked binding), .get accountId => accountId = binding.canonicalAccountId
  | (.provision .., .replacing _ old), .exec commands => commands = indexCommands env old .delIndex
  | (_, .writing binding), .exec commands => commands = writeCommands env binding
  | _, _ => False

def Stage.after (call : ServiceCall) : Stage → (c : Call) → Reply c → Stage
  | .begun, .get _, (some stored : Option (Option IdentityBinding)) => looked env call stored
  | .searching index key next, .getIndex .., (some entry : Option (Option String)) =>
    match entry with
    | none => settled call index next
    | some accountId =>
      if accountId = "" then settled call index next else .found index key next accountId
  | .found index _ next _, .get _, (some stored : Option (Option IdentityBinding)) =>
    met call index next stored
  | .checked binding, .existsBinding _, (some there : Option Bool) =>
    if there then .finished else .writing binding
  | .checked binding, .get _, (some stored : Option (Option IdentityBinding)) =>
    match stored with
    | none => .finished
    | some old => .replacing binding old
  | .replacing binding _, .exec _, (some () : Option Unit) => .writing binding
  | _, _, _ => .finished

def identityMonitor : Monitor Call Reply Duty where
  allows := Duty.allows env
  after duty c reply := (duty.1, duty.2.after env duty.1 c reply)

end Monitor

section Obeys
variable {env : Environment} {α : Type} {duty : Duty} {post : Duty → Except Failure α → Prop}

theorem meets_get {accountId : String} {next : Option IdentityBinding → Run α}
    (allowed : duty.allows env (.get accountId))
    (failed : post ((identityMonitor env).after duty (.get accountId) none) (.error .redis))
    (rest : ∀ stored, Meets (identityMonitor env) (next stored) post
      ((identityMonitor env).after duty (.get accountId) (some stored))) :
    Meets (identityMonitor env) (get accountId >>= next) post duty :=
  ⟨allowed, fun
    | none => failed
    | some stored => rest stored⟩

theorem meets_getIndex {index : Index} {key : String} {next : Option String → Run α}
    (allowed : duty.allows env (.getIndex index key))
    (failed : post ((identityMonitor env).after duty (.getIndex index key) none) (.error .redis))
    (rest : ∀ entry, Meets (identityMonitor env) (next entry) post
      ((identityMonitor env).after duty (.getIndex index key) (some entry))) :
    Meets (identityMonitor env) (getIndex index key >>= next) post duty :=
  ⟨allowed, fun
    | none => failed
    | some entry => rest entry⟩

theorem meets_existsBinding {accountId : String} {next : Bool → Run α}
    (allowed : duty.allows env (.existsBinding accountId))
    (failed : post ((identityMonitor env).after duty (.existsBinding accountId) none) (.error .redis))
    (rest : ∀ there, Meets (identityMonitor env) (next there) post
      ((identityMonitor env).after duty (.existsBinding accountId) (some there))) :
    Meets (identityMonitor env) (existsBinding accountId >>= next) post duty :=
  ⟨allowed, fun
    | none => failed
    | some there => rest there⟩

theorem meets_exec {commands : List Command} {operation : String}
    {post : Duty → Except Failure Unit → Prop}
    (allowed : duty.allows env (.exec commands))
    (failed : post ((identityMonitor env).after duty (.exec commands) none)
      (.error (.repository .persistenceError s!"{operation} failed")))
    (rest : post ((identityMonitor env).after duty (.exec commands) (some ())) (.ok ())) :
    Meets (identityMonitor env) (execMultiOrThrow commands operation) post duty :=
  ⟨allowed, fun
    | none => failed
    | some () => rest⟩

def Over (duty : Duty) : Prop := duty.2 = .finished

def Searched (call : ServiceCall) (index : Index) (next : Option IdentityBinding)
    (found : Option IdentityBinding) (duty : Duty) : Prop :=
  duty = (call, met call index next found)

theorem getByIndex_meets (call : ServiceCall) (index : Index) (identifier : String)
    (next : Option IdentityBinding) :
    Meets (identityMonitor env) (getByIndex env index identifier)
      (Ends (fun _ duty => Over duty) (Searched call index next))
      (call, .searching index (indexKey env index identifier) next) := by
  unfold getByIndex
  refine meets_getIndex ⟨rfl, rfl⟩ rfl fun entry => ?_
  cases entry with
  | none =>
    change (call, settled call index next) = (call, met call index next none)
    cases call <;> rfl
  | some accountId =>
    dsimp only
    simp only [identityMonitor, Stage.after]
    split
    · change (call, settled call index next) = (call, met call index next none)
      cases call <;> rfl
    · exact ⟨rfl, fun
        | none => rfl
        | some stored => rfl⟩

variable {next : Option IdentityBinding}

theorem meets_lookup {call : ServiceCall} (index : Index) {identifier : String}
    {following : Option IdentityBinding → Run α}
    (rest : ∀ stored, Meets (identityMonitor env) (following stored) (fun duty _ => Over duty)
      (call, met call index next stored)) :
    Meets (identityMonitor env) (getByIndex env index identifier >>= following)
      (fun duty _ => Over duty) (call, .searching index (indexKey env index identifier) next) := by
  rw [meets_bind]
  refine Meets.imp (getByIndex_meets call index identifier next) fun duty outcome ended => ?_
  cases outcome with
  | error e => exact ended
  | ok stored =>
    rw [(ended : duty = _)]
    exact rest stored

theorem validate_bindingOf (request : CreateIdentityBindingRequest) (apSigningKeyRef : String) :
    (bindingOf request apSigningKeyRef).validate = [] := rfl

theorem createIdentityBinding_obeys (request : CreateIdentityBindingRequest)
    (apSigningKeyRef : String) :
    ObeysTo (identityMonitor env) Over (createIdentityBinding env request apSigningKeyRef)
      (.create request apSigningKeyRef, .begun) := by
  unfold createIdentityBinding getByCanonicalAccountId
  refine meets_get rfl rfl fun stored => ?_
  cases stored with
  | some _ => rfl
  | none =>
    refine meets_lookup .actor fun stored => ?_
    cases stored with
    | some _ => rfl
    | none =>
      refine meets_lookup .webId fun stored => ?_
      cases stored with
      | some _ => rfl
      | none =>
        dsimp only
        rw [validate_bindingOf, if_neg (fun none => none rfl), meets_bind, meets_mapError]
        unfold create
        refine meets_existsBinding rfl rfl fun there => ?_
        cases there with
        | true => rfl
        | false =>
          rw [if_neg Bool.false_ne_true]
          exact meets_exec rfl rfl rfl

variable {request : ProvisionAtprotoIdentityRequest}

theorem handleTaken_eq (named : request.atprotoHandle ≠ "") :
    handleTaken env request = getByIndex env .handle request.atprotoHandle >>= fun
      | none => pure false
      | some existing => pure (existing.canonicalAccountId ≠ request.canonicalAccountId) := by
  unfold handleTaken
  rw [if_neg named]
  rfl

theorem handleTaken_meets {commitKeyRef rotationKeyRef : String}
    (named : request.atprotoHandle ≠ "") :
    let call : ServiceCall := .provision request commitKeyRef rotationKeyRef
    Meets (identityMonitor env) (handleTaken env request)
      (Ends (fun _ duty => Over duty) fun taken duty =>
        duty = (call, if taken then .finished else settled call .handle next))
      (call, .searching .handle (env.toLowerCase request.atprotoHandle) next) := by
  intro call
  rw [handleTaken_eq named]
  refine ends_bind (getByIndex_meets call .handle request.atprotoHandle next)
    fun stored duty searched => ?_
  rw [(searched : duty = _)]
  cases stored with
  | none => rfl
  | some existing =>
    by_cases same : existing.canonicalAccountId = request.canonicalAccountId
    · have kept : met call .handle next (some existing) = settled call .handle next := if_pos same
      have free : decide (existing.canonicalAccountId ≠ request.canonicalAccountId) = false := by
        simpa using same
      change (call, met call .handle next (some existing)) = (call, if decide _ then _ else _)
      rw [kept, free]
      rfl
    · have refused : met call .handle next (some existing) = .finished := if_neg same
      have taken : decide (existing.canonicalAccountId ≠ request.canonicalAccountId) = true := by
        simpa using same
      change (call, met call .handle next (some existing)) = (call, if decide _ then _ else _)
      rw [refused, taken]
      rfl

theorem provisionAtprotoIdentity_obeys
    {commitKeyRef rotationKeyRef : String} (named : request.atprotoHandle ≠ "") :
    ObeysTo (identityMonitor env) Over
      (provisionAtprotoIdentity env request commitKeyRef rotationKeyRef)
      (.provision request commitKeyRef rotationKeyRef, .begun) := by
  unfold provisionAtprotoIdentity getByCanonicalAccountId
  refine meets_get rfl rfl fun stored => ?_
  cases stored with
  | none => rfl
  | some binding =>
    change Meets (identityMonitor env) _ _
      (_, if isProvisioned binding then .finished else .searching .handle _ _)
    by_cases already : isProvisioned binding = true
    · rw [if_pos already]
      dsimp only
      unfold isProvisioned at already
      rw [if_pos already]
      rfl
    rw [if_neg already]
    dsimp only
    unfold isProvisioned at already
    rw [if_neg already, meets_bind]
    -- what follows the search, once the handle is known not to be taken
    have rest : Meets (identityMonitor env)
        (match provisioned env binding request commitKeyRef rotationKeyRef with
          | none => .fail .invalidUrl
          | some updated =>
            if updated.validate ≠ [] then
              .fail (.service .validationFailed
                ("Updated binding validation failed: " ++ String.intercalate ", " updated.validate))
            else do
              update env updated
              pure updated : Run IdentityBinding)
        (fun duty _ => Over duty)
        (.provision request commitKeyRef rotationKeyRef,
          settled (.provision request commitKeyRef rotationKeyRef) .handle
            (renewal env request commitKeyRef rotationKeyRef binding)) := by
      unfold renewal
      cases provisioned env binding request commitKeyRef rotationKeyRef with
      | none => rfl
      | some updated =>
        rw [Option.filter_some]
        dsimp only
        by_cases valid : updated.validate = []
        · rw [if_neg (fun invalid => invalid valid), if_pos (decide_eq_true valid)]
          unfold update
          rw [meets_bind]
          refine meets_get rfl rfl fun stored => ?_
          cases stored with
          | none => rfl
          | some old =>
            dsimp only
            unfold removeIndexes write
            rw [meets_bind]
            refine meets_exec rfl rfl ?_
            exact meets_exec rfl rfl rfl
        · rw [if_pos valid, if_neg (by simpa using valid)]
          rfl
    refine Meets.imp (handleTaken_meets named) fun duty outcome searched => ?_
    cases outcome with
    | error e => exact searched
    | ok taken =>
      rw [(searched : duty = _)]
      cases taken with
      | true => rfl
      | false => exact rest

end Obeys

end MastopodFederation.Guarantees.IdentityRequests
