import MastopodFederation.Source.OAuthAuthorizationServer
import MastopodFederation.Lib.SingleUse
import MastopodFederation.Lib.PoolRuns

/-!
# What a request does to the credentials

A request stores a credential under a text it has just drawn, deletes and revokes only what
it has read, writes no refresh token over one it has read without a revocation time, and
reports a credential after it has deleted or revoked it.
-/
namespace MastopodFederation.Guarantees.OAuthRequests
open Lib.Calls Lib.WorkerPool Lib.PoolRuns Lib.SingleUse Lib.RecordStore
open Source.OAuthAuthorizationServer

/-- What a request knows: the text it drew last and has not used, the credentials it found
stored, the one it deleted or revoked and has yet to report, and the tokens of a family that
it has yet to revoke. -/
structure Duty where
  text : Option String
  reads : List Credential
  claim : Option Credential
  pending : Option (String × List String)
  consumes : Bool

namespace Duty

def start (consumes : Bool) : Duty := ⟨none, [], none, none, consumes⟩

def draw (u : Duty) (text : String) : Duty := { u with text := some text }

def stored (u : Duty) : Duty := { u with text := none }

def read (u : Duty) (credential : Credential) : Duty :=
  { u with reads := credential :: u.reads }

def claiming (u : Duty) (credential : Credential) : Duty :=
  if u.consumes then { u with claim := some credential } else u

section Fields
variable (u : Duty) (credential : Credential)

@[simp] theorem claiming_text : (u.claiming credential).text = u.text := by
  unfold claiming
  split <;> rfl

@[simp] theorem claiming_reads : (u.claiming credential).reads = u.reads := by
  unfold claiming
  split <;> rfl

@[simp] theorem claiming_pending : (u.claiming credential).pending = u.pending := by
  unfold claiming
  split <;> rfl

@[simp] theorem claiming_consumes : (u.claiming credential).consumes = u.consumes := by
  unfold claiming
  split <;> rfl

theorem claiming_claim (consumes : u.consumes = true) :
    (u.claiming credential).claim = some credential := by
  rw [claiming, if_pos consumes]

end Fields

def settled (u : Duty) (done : String → Bool) : Duty :=
  { u with pending := u.pending.map fun pending => (pending.1, pending.2.filter (!done ·)) }

end Duty

def requestMonitor : Monitor Call Reply Duty where
  allows u
    | .parSet record _ => u.text = some (Credential.par record.requestUri).text
    | .codeSet record _ => u.text = some record.code
    | .challengeSet record _ => u.text = some record.challengeId
    | .refreshPut record _ => u.text = some record.refreshTokenId
    | .parDel requestUri => .par requestUri ∈ u.reads
    | .codeDel code => .code code ∈ u.reads
    | .challengeDel challengeId => .consent challengeId ∈ u.reads
    | .revokeGet tokenId => u.consumes = true → .refresh tokenId ∈ u.reads
    | .refreshSet record _ => .refresh record.refreshTokenId ∈ u.reads ∧ record.isRevoked = true
    | .refreshSetAll writes => ∀ write ∈ writes,
      .refresh write.1.refreshTokenId ∈ u.reads ∧ write.1.isRevoked = true
    | .succeeded credential => u.claim = some credential
    | .familyScan familyId cursor => ∀ owed, cursor = some owed →
      ∃ pending, u.pending = some (familyId, pending) ∧ ∀ id ∈ pending, id ∈ owed
    | .familyRevoked familyId => u.pending = some (familyId, [])
    | _ => True
  after u
    | .randomUUID, text => u.draw text
    | .parSet .., _ | .codeSet .., _ | .challengeSet .., _ | .refreshPut .., _ => u.stored
    | .parGet requestUri, found => if found.isSome then u.read (.par requestUri) else u
    | .codeGet code, found => if found.isSome then u.read (.code code) else u
    | .challengeGet challengeId, found =>
      if found.isSome then u.read (.consent challengeId) else u
    | .refreshGet tokenId, found => if found.isSome then u.read (.refresh tokenId) else u
    | .revokeGet tokenId, found =>
      if found.isSome then u.read (.refresh tokenId) else u.claiming (.refresh tokenId)
    | .parDel requestUri, _ => u.claiming (.par requestUri)
    | .codeDel code, _ => u.claiming (.code code)
    | .challengeDel challengeId, _ => u.claiming (.consent challengeId)
    | .refreshSet record _, _ => u.claiming (.refresh record.refreshTokenId)
    | .succeeded _, _ => { u with claim := none }
    | .familyScan familyId _, page =>
      { u with pending := some (familyId, page.1.getD [] ++ page.2) }
    | .refreshMget tokenIds, found =>
      { u with reads := (tokenIds.filter (found · |>.isSome)).map Credential.refresh ++ u.reads }.settled
        fun tokenId => tokenId ∈ tokenIds ∧ (found tokenId).isNone
    | .refreshSetAll writes, _ =>
      u.settled fun tokenId => tokenId ∈ writes.map (·.1.refreshTokenId)
    | _, _ => u

section Programs
variable {rt : Runtime} {cfg : Config} {u v w : Duty} {α β : Type}

abbrev EndsIn (Q : α → Duty → Prop) : Duty → Except OAuthError α → Prop := Ends (fun _ _ => True) Q

abbrev Leaves (program : Run α) (u : Duty) (Q : α → Duty → Prop) : Prop :=
  Meets requestMonitor program (EndsIn Q) u

variable {Q : α → Duty → Prop}

theorem leaves_bind {x : Run α} {f : α → Run β} {Q' : β → Duty → Prop}
    (first : Leaves x u Q) (second : ∀ a t, Q a t → Leaves (f a) t Q') : Leaves (x >>= f) u Q' :=
  ends_bind first second

theorem leaves_done {outcome : Except OAuthError α}
    (met : ∀ a, outcome = .ok a → Q a u) : Leaves (.done outcome) u Q :=
  ends_done (fun _ _ => trivial) met

theorem epochSec_leaves : Leaves epochSec u fun _ t => t = u := ⟨trivial, fun _ => rfl⟩

theorem ttlSec_leaves (expires : Nat) : Leaves (ttlSec expires) u fun _ t => t = u :=
  leaves_bind epochSec_leaves fun _ _ same => same

theorem randomUUID_leaves : Leaves randomUUID u fun text t => t = u.draw text :=
  ⟨trivial, fun _ => rfl⟩

theorem succeeded_leaves {credential : Credential} (claimed : u.claim = some credential) :
    Leaves (succeeded credential) u fun _ t => t = { u with claim := none } :=
  ⟨claimed, fun _ => rfl⟩

theorem ensured_leaves (value : Option String) (maxLength : Nat) (field : String) :
    Leaves (ensured rt value maxLength field) u fun _ t => t = u :=
  leaves_done fun _ _ => rfl

theorem put_leaves {c : Nat → Call} {next : (ttl : Nat) → Reply (c ttl) → Run Unit} {expires : Nat}
    (written : ∀ ttl, requestMonitor.allows u (c ttl) ∧
      ∀ reply, Leaves (next ttl reply) (requestMonitor.after u (c ttl) reply) fun _ t => t = v) :
    Leaves (ttlSec expires >>= fun ttl => .call (c ttl) (next ttl)) u fun _ t => t = v := by
  apply leaves_bind (ttlSec_leaves expires)
  intro ttl t same
  rw [same]
  exact written ttl

theorem par_put_leaves {record : ParStoredRequest}
    (text : u.text = some (Credential.par record.requestUri).text) :
    Leaves (ParStore.put record) u fun _ t => t = u.stored :=
  put_leaves (c := (.parSet record ·)) fun _ => ⟨text, fun _ => rfl⟩

theorem code_put_leaves {record : AuthorizationCodeRecord} (text : u.text = some record.code) :
    Leaves (CodeStore.put record) u fun _ t => t = u.stored :=
  put_leaves (c := (.codeSet record ·)) fun _ => ⟨text, fun _ => rfl⟩

theorem refresh_put_leaves {record : RefreshTokenRecord}
    (text : u.text = some record.refreshTokenId) :
    Leaves (RefreshTokenStore.put record) u fun _ t => t = u.stored :=
  put_leaves (c := (.refreshPut record ·)) fun _ => ⟨text, fun _ => rfl⟩

theorem consume_leaves {get : Run (Option α)} {del : Run Unit}
    (read : Leaves get u fun found t => t = if found.isSome then v else u)
    (deleted : Leaves del v fun _ t => t = w) :
    Leaves (consume get del) u fun found t => t = if found.isSome then w else u := by
  apply leaves_bind read
  intro found t same
  rw [same]
  cases found with
  | none => exact rfl
  | some record => exact leaves_bind deleted fun _ _ ends => ends

theorem par_consume_leaves (requestUri : String) :
    Leaves (ParStore.consume requestUri) u fun found t =>
      t = if found.isSome then (u.read (.par requestUri)).claiming (.par requestUri) else u :=
  consume_leaves ⟨trivial, fun _ => rfl⟩ ⟨List.mem_cons_self, fun _ => rfl⟩

theorem code_consume_leaves (code : String) :
    Leaves (CodeStore.consume code) u fun found t =>
      t = if found.isSome then (u.read (.code code)).claiming (.code code) else u :=
  consume_leaves ⟨trivial, fun _ => rfl⟩ ⟨List.mem_cons_self, fun _ => rfl⟩

theorem challenge_consume_leaves (challengeId : String) :
    Leaves (ConsentChallengeStore.consume challengeId) u fun found t =>
      t = if found.isSome then (u.read (.consent challengeId)).claiming (.consent challengeId)
        else u :=
  consume_leaves ⟨trivial, fun _ => rfl⟩ ⟨List.mem_cons_self, fun _ => rfl⟩

theorem mint_leaves (requestUri fingerprint : String) (ttl : Nat) :
    Leaves (ConsentChallengeStore.mint requestUri fingerprint ttl) u fun _ _ => True := by
  apply leaves_bind randomUUID_leaves
  intro challengeId t drawn
  rw [drawn]
  apply leaves_bind epochSec_leaves
  intro now t same
  rw [same]
  exact ⟨rfl, fun _ => trivial⟩

theorem createOrUpdate_leaves (subjectDid canonicalAccountId clientId scope : String) :
    Leaves (GrantStore.createOrUpdate subjectDid canonicalAccountId clientId scope) u
      fun grant t => t = u.draw grant.grantId := by
  apply leaves_bind epochSec_leaves
  intro now t same
  rw [same]
  apply leaves_bind randomUUID_leaves
  intro grantId t drawn
  rw [drawn]
  exact ⟨trivial, fun _ => rfl⟩

theorem revoke_leaves {tokenId : String} {revokedAt : EpochSec} {replacedBy : Option String}
    (known : u.consumes = true → .refresh tokenId ∈ u.reads) :
    Leaves (RefreshTokenStore.revoke tokenId revokedAt replacedBy) u fun _ t =>
      t.text = u.text ∧ t.consumes = u.consumes ∧
        (u.consumes = true → t.claim = some (.refresh tokenId)) := by
  refine ⟨known, fun found => ?_⟩
  cases found with
  | none =>
    change _ = _ ∧ _ = _ ∧ (_ → (u.claiming (.refresh tokenId)).claim = _)
    exact ⟨u.claiming_text _, u.claiming_consumes _, u.claiming_claim _⟩
  | some current =>
    obtain ⟨current, same⟩ := current
    cases same
    apply leaves_bind (ttlSec_leaves _)
    intro ttl t unchanged
    rw [unchanged]
    refine ⟨⟨List.mem_cons_self, ?_⟩, fun _ => ⟨?_, ?_, ?_⟩⟩
    · simp [RefreshTokenRecord.isRevoked, Nat.ne_of_gt revokedAt.2]
    · exact Duty.claiming_text (u.read _) _
    · exact Duty.claiming_consumes (u.read _) _
    · exact Duty.claiming_claim (u.read _) _

theorem signJwt_leaves (payload : TokenPayload) (ttl : Nat) :
    Leaves (.call (.signJwt payload ttl) pure : Run String) u fun _ t => t = u :=
  ⟨trivial, fun _ => rfl⟩

theorem jwtVerify_leaves (refreshToken : String) :
    Leaves (.call (.jwtVerify refreshToken) pure : Run (Option RefreshPayload)) u
      fun _ t => t = u :=
  ⟨trivial, fun _ => rfl⟩

theorem refreshGet_leaves (tokenId : String) :
    Leaves (RefreshTokenStore.get tokenId) u fun found t =>
      t = if found.isSome then u.read (.refresh tokenId) else u :=
  ⟨trivial, fun _ => rfl⟩

theorem issueTokenPair_leaves (input : IssueInput) :
    Leaves (issueTokenPair cfg input) u fun _ t => t.claim = u.claim := by
  apply leaves_bind randomUUID_leaves
  intro accessJti t drawn
  rw [drawn]
  apply leaves_bind randomUUID_leaves
  intro refreshJti t drawn
  rw [drawn]
  apply leaves_bind (signJwt_leaves _ _)
  intro accessToken t same
  rw [same]
  apply leaves_bind (signJwt_leaves _ _)
  intro refreshToken t same
  rw [same]
  apply leaves_bind epochSec_leaves
  intro now t same
  rw [same]
  apply leaves_bind (refresh_put_leaves rfl)
  intro _ t stored
  rw [stored]
  exact rfl

theorem par_text (id : String) : (Credential.par (requestUriPrefix ++ id)).text = id := by
  rw [Credential.text, String.toList_append, ← String.length_toList, List.drop_left,
    String.ofList_toList]

theorem createPushedAuthorizationRequest_leaves (payload : ParInput) (dpopJkt : String) :
    Leaves (createPushedAuthorizationRequest rt cfg payload dpopJkt) u fun _ _ => True := by
  apply leaves_bind (ensured_leaves _ _ _)
  intro clientId t same
  rw [same]
  apply leaves_bind (ensured_leaves _ _ _)
  intro redirectUri t same
  rw [same]
  apply leaves_bind (ensured_leaves _ _ _)
  intro scope t same
  rw [same]
  apply leaves_bind (ensured_leaves _ _ _)
  intro codeChallenge t same
  rw [same]
  change Leaves (if _ then _ else _) _ _
  split
  · trivial
  refine ⟨trivial, fun metadata => ?_⟩
  apply leaves_bind (leaves_done fun _ _ => rfl : Leaves _ _ fun _ t => t = u)
  intro redirectUris t same
  rw [same]
  change Leaves (if _ then _ else _) _ _
  split
  · trivial
  apply leaves_bind randomUUID_leaves
  intro id t drawn
  rw [drawn]
  apply leaves_bind epochSec_leaves
  intro now t same
  rw [same]
  apply leaves_bind (par_put_leaves _)
  · exact fun _ _ _ => trivial
  · exact congrArg some (par_text id).symm

theorem getAuthorizationContext_leaves (requestUri : String) :
    Leaves (getAuthorizationContext rt requestUri) u fun _ _ => True := by
  apply leaves_bind (ensured_leaves _ _ _)
  intro requestUri t same
  refine ⟨trivial, fun (par : Option (ParAt requestUri)) => ?_⟩
  cases par with
  | none => trivial
  | some par => trivial

theorem reject_leaves (requestUri : String) (consumes : u.consumes = true) :
    Leaves (reject rt requestUri) u fun _ _ => True := by
  apply leaves_bind (ensured_leaves _ _ _)
  intro requestUri t same
  rw [same]
  apply leaves_bind (par_consume_leaves requestUri)
  intro par t consumed
  rw [consumed]
  cases par with
  | none => trivial
  | some par =>
    apply leaves_bind (succeeded_leaves (Duty.claiming_claim (u.read _) _ consumes))
    exact fun _ _ _ => trivial

theorem authorize_leaves (requestUri subjectDid canonicalAccountId : String)
    (consumes : u.consumes = true) :
    Leaves (authorize rt cfg requestUri subjectDid canonicalAccountId) u fun _ _ => True := by
  apply leaves_bind (ensured_leaves _ _ _)
  intro requestUri t same
  rw [same]
  apply leaves_bind (ensured_leaves _ _ _)
  intro subjectDid t same
  rw [same]
  apply leaves_bind (ensured_leaves _ _ _)
  intro canonicalAccountId t same
  rw [same]
  apply leaves_bind (par_consume_leaves requestUri)
  intro par t consumed
  rw [consumed]
  cases par with
  | none => trivial
  | some par =>
    apply leaves_bind epochSec_leaves
    intro now t same
    rw [same]
    apply leaves_bind (createOrUpdate_leaves _ _ _ _)
    intro grant t drawn
    rw [drawn]
    apply leaves_bind randomUUID_leaves
    intro code t drawn
    rw [drawn]
    apply leaves_bind (code_put_leaves rfl)
    intro _ t stored
    rw [stored]
    refine leaves_bind (succeeded_leaves ?_) fun _ _ _ => trivial
    exact Duty.claiming_claim (u.read _) _ consumes

theorem exchangeAuthorizationCode_leaves (input : TokenExchangeInput) (clientId dpopJkt : String)
    (consumes : u.consumes = true) :
    Leaves (exchangeAuthorizationCode rt cfg input clientId dpopJkt) u fun _ _ => True := by
  unfold exchangeAuthorizationCode
  dsimp only
  split
  · trivial
  apply leaves_bind (code_consume_leaves _)
  intro found t consumed
  rw [consumed]
  cases found with
  | none => trivial
  | some codeRecord =>
    apply leaves_bind (leaves_done fun _ _ => rfl : Leaves _ _ fun _ t => t = _)
    intro _ t same
    rw [same]
    apply leaves_bind randomUUID_leaves
    intro familyId t drawn
    rw [drawn]
    apply leaves_bind (issueTokenPair_leaves _)
    intro pair t kept
    have claimed := kept.trans (Duty.claiming_claim (u.read (.code (input.code.getD ""))) _ consumes)
    apply leaves_bind (succeeded_leaves claimed)
    exact fun _ _ _ => trivial

theorem exchangeRefreshToken_leaves (input : TokenExchangeInput) (clientId dpopJkt : String)
    (consumes : u.consumes = true) :
    Leaves (exchangeRefreshToken cfg input clientId dpopJkt) u fun _ _ => True := by
  unfold exchangeRefreshToken
  dsimp only
  split
  · trivial
  apply leaves_bind (jwtVerify_leaves _)
  intro payload t same
  rw [same]
  apply leaves_bind (leaves_done fun _ _ => rfl : Leaves _ _ fun _ t => t = u)
  intro refreshTokenId t same
  rw [same]
  apply leaves_bind (refreshGet_leaves refreshTokenId)
  intro found t same
  rw [same]
  cases found with
  | none => trivial
  | some record =>
    apply leaves_bind (leaves_done fun _ _ => rfl :
      Leaves _ _ fun _ t => t = u.read (.refresh refreshTokenId))
    intro current t same
    rw [same]
    apply leaves_bind epochSec_leaves
    intro now t same
    rw [same]
    have known : Credential.refresh current.1.refreshTokenId ∈
        (u.read (.refresh refreshTokenId)).reads := by
      rw [current.2]
      exact List.mem_cons_self
    apply leaves_bind (revoke_leaves fun _ => known)
    intro _ t revoked
    apply leaves_bind (issueTokenPair_leaves _)
    intro pair t kept
    have claimed := kept.trans (revoked.2.2 consumes)
    rw [current.2] at claimed
    apply leaves_bind (succeeded_leaves claimed)
    exact fun _ _ _ => trivial

theorem postAuthorize_leaves (body : DecisionBody) (fingerprint authorization : String)
    (consumes : u.consumes = true) :
    Leaves (postAuthorize rt cfg body fingerprint authorization) u fun _ _ => True := by
  apply leaves_bind (ensured_leaves _ _ _)
  intro requestUri t same
  rw [same]
  apply leaves_bind (ensured_leaves _ _ _)
  intro consentChallenge t same
  rw [same]
  apply leaves_bind (ensured_leaves _ _ _)
  intro given t same
  rw [same]
  dsimp only
  split
  · trivial
  apply leaves_bind (challenge_consume_leaves consentChallenge)
  intro found t consumed
  rw [consumed]
  cases found with
  | none => trivial
  | some challengeRecord =>
    apply leaves_bind (succeeded_leaves (Duty.claiming_claim (u.read _) _ consumes))
    intro _ t reported
    have still : t.consumes = true := by
      rw [reported]
      exact (Duty.claiming_consumes (u.read _) _).trans consumes
    split
    · trivial
    split
    · trivial
    split
    · apply leaves_bind (reject_leaves requestUri still)
      exact fun _ _ _ => trivial
    split
    · trivial
    refine ⟨trivial, fun session => ?_⟩
    cases session with
    | none => trivial
    | some session =>
      apply leaves_bind (authorize_leaves requestUri session.did session.canonicalAccountId still)
      exact fun _ _ _ => trivial

section Revocations
variable {revokedAt now : EpochSec} {tokenIds : List String}
  {found : (tokenId : String) → Option (TokenAt tokenId)}

theorem mem_revocations {write : RefreshTokenRecord × Nat} :
    write ∈ RefreshTokenStore.revocations revokedAt now tokenIds found ↔
      ∃ tokenId ∈ tokenIds, ∃ parsed, found tokenId = some parsed ∧
        ({ parsed.1 with revokedAtEpochSec := some revokedAt.1 },
          max 1 (parsed.1.expiresAtEpochSec - now.1)) = write := by
  simp only [RefreshTokenStore.revocations, List.mem_filterMap, Option.map_eq_some_iff]

theorem revocations_cover (revokedAt now : EpochSec) {tokenId : String} (listed : tokenId ∈ tokenIds)
    (stored : (found tokenId).isSome = true) :
    tokenId ∈ (RefreshTokenStore.revocations revokedAt now tokenIds found).map
      (·.1.refreshTokenId) := by
  obtain ⟨parsed, there⟩ := Option.isSome_iff_exists.mp stored
  rw [List.mem_map]
  exact ⟨_, mem_revocations.mpr ⟨tokenId, listed, parsed, there, rfl⟩, parsed.2⟩

end Revocations

def Left (familyId : String) (pending page : List String) (t : Duty) : Prop :=
  ∃ left, t.pending = some (familyId, left) ∧ ∀ id ∈ left, id ∈ pending ∧ id ∉ page

variable {familyId : String} {pending : List String}

theorem settled_pending {done : String → Bool} (before : u.pending = some (familyId, pending)) :
    (u.settled done).pending = some (familyId, pending.filter (!done ·)) := by
  simp [Duty.settled, before]

theorem revokeBatch_leaves (revokedAt : EpochSec)
    (tokenIds : List String) (before : u.pending = some (familyId, pending)) :
    Leaves (RefreshTokenStore.revokeBatch revokedAt tokenIds) u
      fun _ t => Left familyId pending tokenIds t := by
  refine ⟨trivial, fun (found : (tokenId : String) → Option (TokenAt tokenId)) => ?_⟩
  generalize read : requestMonitor.after u (.refreshMget tokenIds) found = v
  have reads : ∀ tokenId ∈ tokenIds, (found tokenId).isSome = true →
      Credential.refresh tokenId ∈ v.reads := by
    intro tokenId listed stored
    rw [← read]
    apply List.mem_append_left
    exact List.mem_map.mpr ⟨tokenId, List.mem_filter.mpr ⟨listed, stored⟩, rfl⟩
  have missing : v.pending = some (familyId, pending.filter
      fun id => !decide (id ∈ tokenIds ∧ (found id).isNone)) := by
    rw [← read]
    exact settled_pending before
  apply leaves_bind epochSec_leaves
  intro now t same
  rw [same]
  dsimp only
  split
  next none =>
    refine ⟨_, missing, fun id left => ?_⟩
    obtain ⟨listed, kept⟩ := List.mem_filter.mp left
    refine ⟨listed, fun batch => ?_⟩
    have gone : (found id).isSome ≠ true := by
      intro stored
      have written := revocations_cover revokedAt now batch stored
      rw [none] at written
      nomatch written
    simp [batch, Option.not_isSome_iff_eq_none.mp gone] at kept
  next =>
    refine ⟨?_, fun _ => ?_⟩
    · intro write written
      obtain ⟨tokenId, listed, parsed, there, rfl⟩ := mem_revocations.mp written
      refine ⟨?_, by simp [RefreshTokenRecord.isRevoked, Nat.ne_of_gt revokedAt.2]⟩
      rw [parsed.2]
      exact reads tokenId listed (by rw [there]; rfl)
    · refine ⟨_, settled_pending missing, fun id left => ?_⟩
      obtain ⟨rest, unwritten⟩ := List.mem_filter.mp left
      obtain ⟨listed, kept⟩ := List.mem_filter.mp rest
      refine ⟨listed, fun batch => ?_⟩
      cases stored : (found id).isSome with
      | true =>
        have written := revocations_cover revokedAt now batch stored
        rw [decide_eq_true written] at unwritten
        nomatch unwritten
      | false =>
        have gone : found id = none := Option.not_isSome_iff_eq_none.mp (by simp [stored])
        simp [batch, gone] at kept

theorem revokePage_leaves (revokedAt : EpochSec) :
    ∀ (batches : Nat) (page pending : List String) (u : Duty), page.length ≤ batches →
      u.pending = some (familyId, pending) →
      Leaves (RefreshTokenStore.revokePage revokedAt batches page) u
        fun _ t => Left familyId pending page t := by
  intro batches
  induction batches with
  | zero =>
    intro page pending u short before
    rw [List.length_eq_zero_iff.mp (Nat.le_zero.mp short)]
    exact ⟨pending, before, fun id listed => ⟨listed, List.not_mem_nil⟩⟩
  | succ batches ih =>
    intro page pending u short before
    unfold RefreshTokenStore.revokePage
    split
    next empty =>
      rw [empty]
      exact ⟨pending, before, fun id listed => ⟨listed, List.not_mem_nil⟩⟩
    next nonempty =>
      apply leaves_bind (revokeBatch_leaves revokedAt _ before)
      intro _ t left
      obtain ⟨rest, still, kept⟩ := left
      have shorter : (page.drop RefreshTokenStore.familyBatchSize).length ≤ batches := by
        have filled := List.length_pos_iff.mpr nonempty
        simp only [List.length_drop, RefreshTokenStore.familyBatchSize]
        omega
      refine (ih _ rest t shorter still).imp fun w outcome ended => ?_
      cases outcome with
      | error e => trivial
      | ok done =>
        obtain ⟨last, final, settled⟩ := (ended : Left familyId rest _ w)
        refine ⟨last, final, fun id listed => ?_⟩
        obtain ⟨earlier, undropped⟩ := settled id listed
        obtain ⟨first, untaken⟩ := kept id earlier
        refine ⟨first, fun paged => ?_⟩
        rw [← List.take_append_drop RefreshTokenStore.familyBatchSize page] at paged
        exact (List.mem_append.mp paged).elim untaken undropped

theorem revokeFamily_leaves (familyId : String) (revokedAt : EpochSec) :
    ∀ (pages : Nat) (cursor : Cursor) (u : Duty),
      requestMonitor.allows u (.familyScan familyId cursor) →
      Leaves (RefreshTokenStore.revokeFamily familyId revokedAt pages cursor) u
        fun _ t => t.pending = some (familyId, []) := by
  intro pages
  induction pages with
  | zero => exact fun _ _ _ => trivial
  | succ pages ih =>
    intro cursor u allowed
    refine ⟨allowed, fun (response : Cursor × List String) => ?_⟩
    apply leaves_bind (revokePage_leaves revokedAt _ response.2 _ _ (Nat.le_refl _) rfl)
    intro _ t left
    obtain ⟨rest, still, kept⟩ := left
    split
    next finished =>
      have none : rest = [] := by
        apply List.eq_nil_iff_forall_not_mem.mpr
        intro id listed
        obtain ⟨owed, unpaged⟩ := kept id listed
        rw [finished] at owed
        exact unpaged owed
      rw [none] at still
      exact still
    next owed more =>
      apply ih (some owed) t
      intro same continues
      cases continues
      refine ⟨rest, still, fun id listed => ?_⟩
      obtain ⟨either, unpaged⟩ := kept id listed
      rw [more] at either
      exact (List.mem_append.mp either).resolve_right unpaged

theorem handle_obeys (rt : Runtime) (cfg : Config) (request : Request) :
    Obeys requestMonitor (handle rt cfg request) (Duty.start request.consumes) := by
  have ends : Leaves (handle rt cfg request) (Duty.start request.consumes) fun _ _ => True := by
    cases request with
    | par body dpopJkt =>
      refine leaves_bind (Q := fun _ _ => True) ?_ fun _ _ _ => trivial
      apply leaves_bind (ensured_leaves _ _ _)
      intro clientId t same
      rw [same]
      apply leaves_bind (ensured_leaves _ _ _)
      intro redirectUri t same
      rw [same]
      apply leaves_bind (ensured_leaves _ _ _)
      intro scope t same
      rw [same]
      apply leaves_bind (ensured_leaves _ _ _)
      intro codeChallenge t same
      exact createPushedAuthorizationRequest_leaves _ _
    | context requestUri fingerprint =>
      refine leaves_bind (Q := fun _ _ => True) ?_ fun _ _ _ => trivial
      apply leaves_bind (ensured_leaves _ _ _)
      intro requestUri t same
      apply leaves_bind (getAuthorizationContext_leaves _)
      intro context t _
      cases context with
      | none => trivial
      | some context =>
        apply leaves_bind epochSec_leaves
        intro now t same
        exact mint_leaves _ _ _
    | decide body fingerprint authorization =>
      apply leaves_bind (postAuthorize_leaves body fingerprint authorization rfl)
      exact fun _ _ _ => trivial
    | token input dpopJkt =>
      refine leaves_bind (Q := fun _ _ => True) ?_ fun _ _ _ => trivial
      apply leaves_bind (ensured_leaves _ _ _)
      intro clientId t same
      rw [same]
      unfold exchangeToken
      split
      · exact exchangeRefreshToken_leaves input clientId dpopJkt rfl
      · exact exchangeAuthorizationCode_leaves input clientId dpopJkt rfl
    | revoke tokenId revokedAt =>
      have free : (Duty.start false).consumes = true →
          Credential.refresh tokenId ∈ (Duty.start false).reads := fun never => nomatch never
      exact (revoke_leaves free).imp fun _ outcome _ => by cases outcome <;> trivial
    | revokeFamily familyId revokedAt pages =>
      apply leaves_bind (revokeFamily_leaves familyId revokedAt pages none _ fun _ none => nomatch none)
      exact fun _ t settled => ⟨settled, fun _ => trivial⟩
  exact ends.imp fun _ _ _ => trivial

end Programs

section Calls
variable {s t : Store} {u v : Duty} {request : Request} {k : Credential}

def Stored (s : Store) : Credential → Prop
  | .par requestUri => (find (·.requestUri) s.pars requestUri).isSome
  | .code code => (find (·.code) s.codes code).isSome
  | .consent challengeId => (find (·.challengeId) s.challenges challengeId).isSome
  | .refresh tokenId => (find (·.refreshTokenId) s.refresh tokenId).isSome

def Available (s : Store) : Credential → Prop
  | .refresh tokenId =>
    ∃ record, find (·.refreshTokenId) s.refresh tokenId = some record ∧ record.isRevoked = false
  | credential => Stored s credential

theorem stored_of_available (available : Available s k) : Stored s k := by
  cases k with
  | refresh tokenId =>
    obtain ⟨record, found, -⟩ := available
    exact Option.isSome_iff_exists.mpr ⟨record, found⟩
  | _ => exact available

structure Draws (s : Store) (u : Duty) (t : Store) (v : Duty) (text : String) : Prop where
  fresh : text ∉ s.drawn
  drawn : t.drawn = text :: s.drawn
  issued : t.issued = s.issued
  text : v.text = some text
  consumes : v.consumes = u.consumes
  stored : ∀ k, Stored t k → Stored s k
  available : ∀ k, Available t k → Available s k
  reads : ∀ k ∈ v.reads, k ∈ u.reads

structure Stores (s : Store) (u : Duty) (t : Store) (v : Duty) (k : Credential) : Prop where
  own : u.text = some k.text
  drawn : t.drawn = s.drawn
  issued : t.issued = k.text :: s.issued
  text : v.text = none
  consumes : v.consumes = u.consumes
  stored : ∀ other, Stored t other → other = k ∨ Stored s other
  available : ∀ other, Available t other → other = k ∨ Available s other
  reads : ∀ k ∈ v.reads, k ∈ u.reads

structure Settles (s : Store) (u : Duty) (t : Store) (v : Duty) : Prop where
  drawn : t.drawn = s.drawn
  issued : t.issued = s.issued
  text : v.text = u.text
  consumes : v.consumes = u.consumes
  stored : ∀ k, Stored t k → Stored s k ∨ k ∈ u.reads
  available : ∀ k, Available t k → Available s k
  reads : ∀ k ∈ v.reads, k ∈ u.reads ∨ Stored s k

theorem Settles.unchanged (text : v.text = u.text) (consumes : v.consumes = u.consumes)
    (reads : ∀ k ∈ v.reads, k ∈ u.reads ∨ Stored s k) : Settles s u s v :=
  ⟨rfl, rfl, text, consumes, fun _ stored => .inl stored, fun _ available => available, reads⟩

theorem Settles.found {present : Bool} (read : present = true → Stored s k) :
    Settles s u s (if present then u.read k else u) := by
  apply Settles.unchanged
  · split <;> rfl
  · split <;> rfl
  · intro other listed
    split at listed
    next there =>
      rcases List.mem_cons.mp listed with rfl | before
      · exact .inr (read there)
      · exact .inl before
    next => exact .inl listed

theorem isSome_of_lookup {α K : Type} [DecidableEq K] {name : α → K} {records : List α} {key : K}
    (found : (lookup name records key).isSome = true) : (find name records key).isSome = true := by
  obtain ⟨record, there⟩ := Option.isSome_iff_exists.mp found
  exact Option.isSome_iff_exists.mpr ⟨record.1, find_of_lookup there⟩

@[simp] theorem take_drawn : (s.take request k).drawn = s.drawn := by
  unfold Store.take
  split <;> rfl

@[simp] theorem take_issued : (s.take request k).issued = s.issued := by
  unfold Store.take
  split <;> rfl

variable {other : Credential}

@[simp] theorem stored_take : Stored (s.take request k) other ↔ Stored s other := by
  unfold Store.take
  split <;> cases other <;> exact Iff.rfl

@[simp] theorem available_take : Available (s.take request k) other ↔ Available s other := by
  unfold Store.take
  split <;> cases other <;> exact Iff.rfl

theorem available_of_stored {P : Prop} (same : t.refresh = s.refresh)
    (stored : Stored t other → P ∨ Stored s other) (there : Available t other) :
    P ∨ Available s other := by
  cases other with
  | refresh tokenId =>
    refine .inr ?_
    unfold Available at there ⊢
    rw [← same]
    exact there
  | _ => exact stored there

theorem Stores.record (own : u.text = some k.text) (refresh : t.refresh = s.refresh)
    (drawn : t.drawn = s.drawn) (issued : t.issued = k.text :: s.issued)
    (stored : ∀ other, Stored t other → other = k ∨ Stored s other) :
    Stores s u t u.stored k :=
  ⟨own, drawn, issued, rfl, rfl, stored, fun other => available_of_stored refresh (stored other),
    fun _ listed => listed⟩

theorem Settles.deleted (refresh : t.refresh = s.refresh) (drawn : t.drawn = s.drawn)
    (issued : t.issued = s.issued) (stored : ∀ other, Stored t other → Stored s other) :
    Settles s u (t.take request k) (u.claiming k) where
  drawn := take_drawn.trans drawn
  issued := take_issued.trans issued
  text := u.claiming_text k
  consumes := u.claiming_consumes k
  stored other there := .inl (stored other (stored_take.mp there))
  available other there := (available_of_stored refresh (P := False)
    (fun kept => .inr (stored other kept)) (available_take.mp there)).resolve_left id
  reads _ listed := .inl (u.claiming_reads k ▸ listed)

variable {record : RefreshTokenRecord}

theorem stored_setRefresh : Stored (s.setRefresh record) other ↔
      other = .refresh record.refreshTokenId ∨ Stored s other := by
  cases other with
  | refresh tokenId =>
    simp only [Stored, Store.setRefresh, find_put, Credential.refresh.injEq]
    split
    next same => simp [same]
    next other => simp [other]
  | _ => simp [Stored, Store.setRefresh]

theorem available_setRefresh
    (revoked : record.isRevoked = true) (available : Available (s.setRefresh record) other) :
    Available s other := by
  cases other with
  | refresh tokenId =>
    obtain ⟨found, there, live⟩ := available
    simp only [Store.setRefresh, find_put] at there
    split at there
    next =>
      cases there
      rw [revoked] at live
      cases live
    next => exact ⟨found, there, live⟩
  | _ => exact available

theorem settles_setAll {writes : List (RefreshTokenRecord × Nat)} :
    (∀ write ∈ writes, .refresh write.1.refreshTokenId ∈ u.reads ∧ write.1.isRevoked = true) →
    (s.setAll writes).drawn = s.drawn ∧ (s.setAll writes).issued = s.issued ∧
      (∀ k, Stored (s.setAll writes) k → Stored s k ∨ k ∈ u.reads) ∧
      ∀ k, Available (s.setAll writes) k → Available s k := by
  induction writes generalizing s with
  | nil => exact fun _ => ⟨rfl, rfl, fun _ stored => .inl stored, fun _ available => available⟩
  | cons write writes ih =>
    intro allowed
    have here := allowed write List.mem_cons_self
    have later : (s.setRefresh write.1).setAll writes = s.setAll (write :: writes) := rfl
    obtain ⟨drawn, issued, stored, available⟩ :=
      ih (s := s.setRefresh write.1) fun other listed => allowed other (List.mem_cons_of_mem _ listed)
    rw [later] at drawn issued stored available
    refine ⟨drawn, issued, fun k there => ?_, fun k there => ?_⟩
    · rcases stored k there with before | read
      · rcases stored_setRefresh.mp before with rfl | kept
        · exact .inr here.1
        · exact .inl kept
      · exact .inr read
    · exact available_setRefresh here.2 (available k there)

theorem call_moves {c : Call} {reply : Reply c} (allowed : requestMonitor.allows u c)
    (performed : Store.Effect request c s reply t) :
    (∃ text, Draws s u t (requestMonitor.after u c reply) text) ∨
      (∃ k, Stores s u t (requestMonitor.after u c reply) k) ∨
      Settles s u t (requestMonitor.after u c reply) := by
  cases c with
  | randomUUID =>
    obtain ⟨fresh, rfl⟩ := performed
    exact .inl ⟨reply, fresh, rfl, rfl, rfl, rfl,
      fun k there => by cases k <;> exact there, fun k there => by cases k <;> exact there,
      fun _ listed => listed⟩
  | parSet record ttl =>
    cases performed
    refine .inr (.inl ⟨.par record.requestUri, .record allowed rfl rfl rfl fun other there => ?_⟩)
    cases other with
    | par requestUri => exact (isSome_find_put.mp there).imp (congrArg _) id
    | _ => exact .inr there
  | codeSet record ttl =>
    cases performed
    refine .inr (.inl ⟨.code record.code, .record allowed rfl rfl rfl fun other there => ?_⟩)
    cases other with
    | code code => exact (isSome_find_put.mp there).imp (congrArg _) id
    | _ => exact .inr there
  | challengeSet record ttl =>
    cases performed
    refine .inr (.inl ⟨.consent record.challengeId, .record allowed rfl rfl rfl
      fun other there => ?_⟩)
    cases other with
    | consent challengeId => exact (isSome_find_put.mp there).imp (congrArg _) id
    | _ => exact .inr there
  | refreshPut record ttl =>
    cases performed
    refine .inr (.inl ⟨.refresh record.refreshTokenId, allowed, rfl, rfl, rfl, rfl,
      fun other there => ?_, fun other there => ?_, fun _ listed => listed⟩)
    · exact stored_setRefresh.mp (by cases other <;> exact there)
    · cases other with
      | refresh tokenId =>
        obtain ⟨found, there, live⟩ := there
        have read : find (·.refreshTokenId) (put (·.refreshTokenId) s.refresh record) tokenId =
            some found := there
        rw [find_put] at read
        split at read
        next same => exact .inl (congrArg _ same)
        next => exact .inr ⟨found, read, live⟩
      | _ => exact .inr there
  | parGet requestUri =>
    obtain ⟨rfl, rfl⟩ := performed
    exact .inr (.inr (.found (k := .par requestUri) isSome_of_lookup))
  | codeGet code =>
    obtain ⟨rfl, rfl⟩ := performed
    exact .inr (.inr (.found (k := .code code) isSome_of_lookup))
  | challengeGet challengeId =>
    obtain ⟨rfl, rfl⟩ := performed
    exact .inr (.inr (.found (k := .consent challengeId) isSome_of_lookup))
  | refreshGet tokenId =>
    obtain ⟨rfl, rfl⟩ := performed
    exact .inr (.inr (.found (k := .refresh tokenId) isSome_of_lookup))
  | parDel requestUri =>
    cases performed
    refine .inr (.inr (.deleted rfl rfl rfl fun other there => ?_))
    cases other with
    | par _ => exact isSome_find_erase there
    | _ => exact there
  | codeDel code =>
    cases performed
    refine .inr (.inr (.deleted rfl rfl rfl fun other there => ?_))
    cases other with
    | code _ => exact isSome_find_erase there
    | _ => exact there
  | challengeDel challengeId =>
    cases performed
    refine .inr (.inr (.deleted rfl rfl rfl fun other there => ?_))
    cases other with
    | consent _ => exact isSome_find_erase there
    | _ => exact there
  | revokeGet tokenId =>
    obtain ⟨answer, changed⟩ := performed
    right
    right
    cases reply with
    | none =>
      rw [if_pos (by rfl)] at changed
      rw [changed]
      exact .deleted rfl rfl rfl fun _ there => there
    | some current =>
      rw [if_neg (by exact Bool.false_ne_true)] at changed
      rw [changed]
      have there : Stored s (.refresh tokenId) := isSome_of_lookup (by rw [← answer]; rfl)
      have kept : Settles s u s (if true then u.read (.refresh tokenId) else u) :=
        .found fun _ => there
      exact kept
  | refreshSet record ttl =>
    cases performed
    obtain ⟨read, revoked⟩ := allowed
    refine .inr (.inr ⟨take_drawn, take_issued, u.claiming_text _, u.claiming_consumes _,
      fun other there => ?_, fun other there => ?_, fun _ listed => ?_⟩)
    · rcases stored_setRefresh.mp (stored_take.mp there) with rfl | kept
      · exact .inr read
      · exact .inl kept
    · exact available_setRefresh revoked (available_take.mp there)
    · exact .inl (u.claiming_reads _ ▸ listed)
  | refreshMget tokenIds =>
    obtain ⟨answer, rfl⟩ := performed
    refine .inr (.inr (.unchanged rfl rfl fun other listed => ?_))
    rcases List.mem_append.mp listed with found | before
    · obtain ⟨tokenId, stored, rfl⟩ := List.mem_map.mp found
      obtain ⟨asked, there⟩ := List.mem_filter.mp stored
      rw [answer tokenId asked] at there
      exact .inr (isSome_of_lookup there)
    · exact .inl before
  | refreshSetAll writes =>
    cases performed
    obtain ⟨drawn, issued, stored, available⟩ := settles_setAll allowed
    exact .inr (.inr ⟨drawn, issued, rfl, rfl, stored, available, fun _ listed => .inl listed⟩)
  | familyScan familyId cursor =>
    obtain ⟨-, -, rfl⟩ := performed
    unfold Store.beginRevoking
    refine .inr (.inr ?_)
    split
    · exact ⟨rfl, rfl, rfl, rfl, fun k there => .inl (by cases k <;> exact there),
        fun k there => by cases k <;> exact there, fun _ listed => .inl listed⟩
    · exact .unchanged rfl rfl fun _ listed => .inl listed
  | succeeded | familyRevoked =>
    cases performed
    exact .inr (.inr ⟨rfl, rfl, rfl, rfl, fun k there => .inl (by cases k <;> exact there),
      fun k there => by cases k <;> exact there, fun _ listed => .inl listed⟩)
  | _ =>
    cases performed
    exact .inr (.inr (.unchanged rfl rfl fun _ listed => .inl listed))

end Calls

def textRight (_ : Request) (u : Duty) : Option String := u.text

/-- A text is drawn by one request and stored under once, and what a request has read was
stored under one. -/
structure Minted (s : Store) (duties : Nat → Option (Request × Duty)) : Prop where
  fresh : Exclusive (rights textRight duties) s.issued
  issued : ∀ text ∈ s.issued, text ∈ s.drawn
  held : ∀ i text, rights textRight duties i = some text → text ∈ s.drawn
  stored : ∀ k, Stored s k → k.text ∈ s.issued
  own : ∀ i request u, duties i = some (request, u) → u.consumes = request.consumes
  reads : ∀ i request u, duties i = some (request, u) → ∀ k ∈ u.reads, k.text ∈ s.issued

def Spent (s : Store) (k : Credential) : Prop := k.text ∈ s.issued ∧ ¬Available s k

section Minted
variable {s t : Store} {u v : Duty} {request : Request} {k : Credential} {i : Nat}
  {duties : Nat → Option (Request × Duty)}

theorem minted_empty : Minted Store.empty fun _ => none where
  fresh := exclusive_none
  issued _ listed := nomatch listed
  held _ _ held := nomatch held
  stored k there := by cases k <;> nomatch there
  own _ _ _ duty := nomatch duty
  reads _ _ _ duty := nomatch duty

theorem Minted.settle (minted : Minted s duties) (drawn : t.drawn = s.drawn)
    (issued : t.issued = s.issued) (stored : ∀ k, Stored t k → k.text ∈ s.issued)
    {duty : Option (Request × Duty)}
    (kept : ∀ text, (duty.bind fun d => textRight d.1 d.2) = some text →
      rights textRight duties i = some text)
    (own : ∀ request u, duty = some (request, u) → u.consumes = request.consumes)
    (reads : ∀ request u, duty = some (request, u) → ∀ k ∈ u.reads, k.text ∈ s.issued) :
    Minted t (setDuty duties i duty) := by
  have changed := rights_setDuty textRight duties i duty
  have right : setRight (rights textRight duties) i (duty.bind fun d => textRight d.1 d.2) =
        rights textRight duties ∨
      setRight (rights textRight duties) i (duty.bind fun d => textRight d.1 d.2) =
        setRight (rights textRight duties) i none := by
    cases held : duty.bind fun d => textRight d.1 d.2 with
    | none => exact .inr rfl
    | some text =>
      rw [← kept text held]
      exact .inl (setRight_self _ i)
  constructor
  · rw [changed, issued]
    rcases right with same | dropped
    · rw [same]
      exact minted.fresh
    · rw [dropped]
      exact minted.fresh.drop
  · rw [drawn, issued]
    exact minted.issued
  · intro j text held
    rw [drawn]
    rw [changed] at held
    rcases right with same | dropped
    · exact minted.held j text (same ▸ held)
    · rw [dropped] at held
      rcases setRight_some held with ⟨-, ⟨⟩⟩ | ⟨-, before⟩
      exact minted.held j text before
  · rw [issued]
    exact stored
  · intro j request u held
    rcases setDuty_some held with ⟨-, here⟩ | ⟨-, before⟩
    · exact own request u here
    · exact minted.own j request u before
  · intro j request u held
    rw [issued]
    rcases setDuty_some held with ⟨-, here⟩ | ⟨-, before⟩
    · exact reads request u here
    · exact minted.reads j request u before

theorem Minted.dropped (minted : Minted s duties) : Minted s (setDuty duties i none) :=
  minted.settle rfl rfl minted.stored (fun _ none => nomatch none) (fun _ _ none => nomatch none)
    fun _ _ none => nomatch none

theorem Minted.started (minted : Minted s duties) :
    Minted s (setDuty duties i (some (request, Duty.start request.consumes))) := by
  apply minted.settle rfl rfl minted.stored
  · exact fun _ none => nomatch none
  · intro _ _ same
    cases same
    rfl
  · intro _ _ same
    cases same
    exact fun _ listed => nomatch listed

theorem Minted.draws {text : String} (minted : Minted s duties)
    (duty : duties i = some (request, u)) (draws : Draws s u t v text) :
    Minted t (setDuty duties i (some (request, v))) := by
  have changed := rights_setDuty textRight duties i (some (request, v))
  have right : (some (request, v)).bind (fun d => textRight d.1 d.2) = some text := draws.text
  rw [right] at changed
  constructor
  · rw [changed, draws.issued]
    apply minted.fresh.acquire
    · exact fun listed => draws.fresh (minted.issued text listed)
    · exact fun j held => draws.fresh (minted.held j text held)
  · rw [draws.issued, draws.drawn]
    exact fun other listed => List.mem_cons_of_mem _ (minted.issued other listed)
  · intro j other held
    rw [draws.drawn]
    rw [changed] at held
    rcases setRight_some held with ⟨-, ⟨⟩⟩ | ⟨-, before⟩
    · exact List.mem_cons_self
    · exact List.mem_cons_of_mem _ (minted.held j other before)
  · rw [draws.issued]
    exact fun k there => minted.stored k (draws.stored k there)
  · intro j request' u' held
    rcases setDuty_some held with ⟨-, ⟨⟩⟩ | ⟨-, before⟩
    · exact draws.consumes.trans (minted.own i request u duty)
    · exact minted.own j request' u' before
  · intro j request' u' held k read
    rw [draws.issued]
    rcases setDuty_some held with ⟨-, ⟨⟩⟩ | ⟨-, before⟩
    · exact minted.reads i request u duty k (draws.reads k read)
    · exact minted.reads j request' u' before k read

theorem Minted.stores (minted : Minted s duties) (duty : duties i = some (request, u))
    (stores : Stores s u t v k) : Minted t (setDuty duties i (some (request, v))) := by
  have changed := rights_setDuty textRight duties i (some (request, v))
  have right : (some (request, v)).bind (fun d => textRight d.1 d.2) = none := stores.text
  rw [right] at changed
  have held : rights textRight duties i = some k.text := by
    rw [rights, duty]
    exact stores.own
  have drawn : k.text ∈ s.drawn := minted.held i k.text held
  constructor
  · rw [changed, stores.issued]
    exact minted.fresh.use held
  · rw [stores.issued, stores.drawn]
    intro other listed
    rcases List.mem_cons.mp listed with rfl | before
    · exact drawn
    · exact minted.issued other before
  · intro j other later
    rw [stores.drawn]
    rw [changed] at later
    rcases setRight_some later with ⟨-, ⟨⟩⟩ | ⟨-, before⟩
    exact minted.held j other before
  · intro other there
    rw [stores.issued]
    rcases stores.stored other there with rfl | before
    · exact List.mem_cons_self
    · exact List.mem_cons_of_mem _ (minted.stored other before)
  · intro j request' u' later
    rcases setDuty_some later with ⟨-, ⟨⟩⟩ | ⟨-, before⟩
    · exact stores.consumes.trans (minted.own i request u duty)
    · exact minted.own j request' u' before
  · intro j request' u' later other read
    rw [stores.issued]
    apply List.mem_cons_of_mem
    rcases setDuty_some later with ⟨-, ⟨⟩⟩ | ⟨-, before⟩
    · exact minted.reads i request u duty other (stores.reads other read)
    · exact minted.reads j request' u' before other read

theorem Minted.settles (minted : Minted s duties) (duty : duties i = some (request, u))
    (settles : Settles s u t v) : Minted t (setDuty duties i (some (request, v))) := by
  have known := minted.reads i request u duty
  apply minted.settle settles.drawn settles.issued
  · intro k there
    rcases settles.stored k there with before | read
    · exact minted.stored k before
    · exact known k read
  · intro text held
    rw [rights, duty]
    exact settles.text.symm.trans held
  · intro _ _ same
    cases same
    exact settles.consumes.trans (minted.own i request u duty)
  · intro _ _ same k read
    cases same
    rcases settles.reads k read with before | there
    · exact known k before
    · exact minted.stored k there

theorem Minted.call (minted : Minted s duties) {c : Call} {reply : Reply c}
    (duty : duties i = some (request, u)) (allowed : requestMonitor.allows u c)
    (performed : Store.Effect request c s reply t) :
    Minted t (setDuty duties i (some (request, requestMonitor.after u c reply))) := by
  rcases call_moves allowed performed with ⟨text, draws⟩ | ⟨k, stores⟩ | settles
  · exact minted.draws duty draws
  · exact minted.stores duty stores
  · exact minted.settles duty settles

theorem Minted.spent (minted : Minted s duties) {c : Call} {reply : Reply c}
    (duty : duties i = some (request, u)) (allowed : requestMonitor.allows u c)
    (performed : Store.Effect request c s reply t) (spent : Spent s k) : Spent t k := by
  rcases call_moves allowed performed with ⟨text, draws⟩ | ⟨stored, stores⟩ | settles
  · exact ⟨draws.issued ▸ spent.1, fun live => spent.2 (draws.available k live)⟩
  · refine ⟨stores.issued ▸ List.mem_cons_of_mem _ spent.1, fun live => ?_⟩
    rcases stores.available k live with rfl | before
    · have held : rights textRight duties i = some k.text := by
        rw [rights, duty]
        exact stores.own
      exact minted.fresh.unused i k.text held spent.1
    · exact spent.2 before
  · exact ⟨settles.issued ▸ spent.1, fun live => spent.2 (settles.available k live)⟩

theorem stored_expire {expiry : Expiry} (there : Stored (s.expire expiry) k) : Stored s k := by
  cases expiry <;> cases k <;> first | exact there | exact isSome_find_erase there

theorem available_expire {expiry : Expiry} (live : Available (s.expire expiry) k) :
    Available s k := by
  cases k with
  | refresh tokenId =>
    cases expiry with
    | refresh gone =>
      obtain ⟨record, found, unrevoked⟩ := live
      have kept : find (·.refreshTokenId) (erase (·.refreshTokenId) s.refresh gone) tokenId =
          some record := found
      rw [find_erase] at kept
      split at kept
      · cases kept
      · exact ⟨record, kept, unrevoked⟩
    | _ => exact live
  | _ => exact stored_expire (stored_of_available live)

theorem Minted.expired (minted : Minted s duties) (expiry : Expiry) :
    Minted (s.expire expiry) duties := by
  have drawn : (s.expire expiry).drawn = s.drawn := by cases expiry <;> rfl
  have issued : (s.expire expiry).issued = s.issued := by cases expiry <;> rfl
  refine ⟨issued ▸ minted.fresh, ?_, drawn ▸ minted.held, ?_, minted.own, issued ▸ minted.reads⟩
  · rw [drawn, issued]
    exact minted.issued
  · rw [issued]
    exact fun k there => minted.stored k (stored_expire there)

theorem Spent.expired (spent : Spent s k) (expiry : Expiry) : Spent (s.expire expiry) k := by
  refine ⟨?_, fun live => spent.2 (available_expire live)⟩
  have issued : (s.expire expiry).issued = s.issued := by cases expiry <;> rfl
  rw [issued]
  exact spent.1

end Minted

def plain : Runtime where
  trim text := text
  length text := text.length
  toLowerCase text := text
  words text := [text]
  sha256base64url text := text

def server : Config :=
  ⟨"https://pds.example", "https://pds.example", "https://pds.example", accessTokenTtlDefault,
    refreshTokenTtlDefault, parTtlDefault, authCodeTtlDefault⟩

def serving : Schedule Store Request Expiry Call Reply OAuthError Unit where
  perform := Store.perform
  boot := handle plain server
  admits _ _ := true
  react expiry s := some (s.expire expiry)

theorem serving_follows : serving.Follows (oauthSystem plain server) where
  perform _ _ _ _ _ performed := Store.effect_of_perform performed
  admits _ _ _ := rfl
  react _ _ _ picked := by
    cases picked
    rfl

def callback : String := "https://client.example/callback"

def client : String := "https://client.example/metadata.json"

def parRequest : Request := .par ⟨some client, some callback, some "atproto", none, some "pkce"⟩ "jkt"

def requestUri : String := requestUriPrefix ++ "n"

def contextRequest : Request := .context (some requestUri) "browser"

def decideRequest : Request :=
  .decide ⟨some requestUri, some "nn", some "approve"⟩ "browser" "Bearer session"

def codeRequest : Request :=
  .token ⟨none, some client, some callback, some "nnnn", some "pkce", none⟩ "jkt"

def refreshRequest (token : String) : Request :=
  .token ⟨some "refresh_token", some client, none, none, none, some token⟩ "jkt"

def turns (i : Nat) (request : Request) (calls : Nat) : List (Turn Request Expiry) :=
  .start i request :: List.replicate calls (.call i)

def authorizing : List (Turn Request Expiry) :=
  turns 0 parRequest 5 ++ turns 1 contextRequest 5 ++ turns 2 decideRequest 14

end MastopodFederation.Guarantees.OAuthRequests
