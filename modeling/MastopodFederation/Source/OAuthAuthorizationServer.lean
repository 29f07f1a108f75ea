import MastopodFederation.Lib.WorkerPool
import MastopodFederation.Lib.RecordStore

/-!
# The OAuth authorization server and its stores

at-adapter/oauth/OAuthAuthorizationServer.ts, the credential stores of OAuthRedisStores.ts
and the routes of OAuthRouteHandlers.ts that use them, from after rate limiting and DPoP.
Every Redis command (and every MULTI) is one call. A key can expire at any moment, so
deadlines are passed but not kept. `succeeded` and `familyRevoked` mark the places where a
credential has served its purpose and where a family revocation returns; nothing reads them.
-/
namespace MastopodFederation.Source.OAuthAuthorizationServer
open Lib.Calls Lib.RecordStore

structure OAuthError where
  code : String
  statusCode : Nat
  safeDescription : String
  deriving DecidableEq, Repr

/-- The text functions of the runtime and SHA-256. -/
structure Runtime where
  trim : String → String
  /-- the length in UTF-16 units -/
  length : String → Nat
  toLowerCase : String → String
  /-- `split(/\s+/g)` -/
  words : String → List String
  sha256base64url : String → String

structure Config where
  issuer : String
  authorizationServerOrigin : String
  resourceServerOrigin : String
  accessTokenTtlSec : Nat
  refreshTokenTtlSec : Nat
  parTtlSec : Nat
  authCodeTtlSec : Nat
  deriving DecidableEq, Repr

def accessTokenTtlDefault : Nat := 600
def refreshTokenTtlDefault : Nat := 60 * 60 * 24 * 30
def parTtlDefault : Nat := 300
def authCodeTtlDefault : Nat := 300

/-- `ensureNonEmptyString`; a member that is missing or not a string is `none`. -/
def ensureNonEmptyString (rt : Runtime) (value : Option String) (maxLength : Nat) (field : String) :
    Except OAuthError String :=
  match value with
  | none => .error ⟨"invalid_request", 400, field ++ " must be a string"⟩
  | some value =>
    let trimmed := rt.trim value
    if trimmed = "" then .error ⟨"invalid_request", 400, field ++ " is required"⟩
    else if maxLength < rt.length trimmed then
      .error ⟨"invalid_request", 400, field ++ " is too long"⟩
    else .ok trimmed

structure ParInput where
  clientId : String
  redirectUri : String
  scope : String
  state : Option String
  codeChallenge : String
  deriving DecidableEq, Repr

structure ParStoredRequest extends ParInput where
  requestUri : String
  createdAtEpochSec : Nat
  expiresAtEpochSec : Nat
  dpopJkt : String
  deriving DecidableEq, Repr

structure AuthorizationCodeRecord where
  code : String
  clientId : String
  redirectUri : String
  subjectDid : String
  canonicalAccountId : String
  scope : String
  codeChallenge : String
  grantId : String
  createdAtEpochSec : Nat
  expiresAtEpochSec : Nat
  dpopJkt : String
  deriving DecidableEq, Repr

structure GrantRecord where
  grantId : String
  subjectDid : String
  canonicalAccountId : String
  clientId : String
  scope : String
  createdAtEpochSec : Nat
  updatedAtEpochSec : Nat
  deriving DecidableEq, Repr

structure RefreshTokenRecord where
  refreshTokenId : String
  familyId : String
  grantId : String
  subjectDid : String
  canonicalAccountId : String
  clientId : String
  scope : String
  issuedAtEpochSec : Nat
  expiresAtEpochSec : Nat
  revokedAtEpochSec : Option Nat
  replacedByTokenId : Option String
  dpopJkt : String
  deriving DecidableEq, Repr

/-- The truth value of `revokedAtEpochSec`. -/
def RefreshTokenRecord.isRevoked (record : RefreshTokenRecord) : Bool :=
  record.revokedAtEpochSec.any (· ≠ 0)

structure ConsentChallengeRecord where
  challengeId : String
  requestUri : String
  fingerprint : String
  createdAtEpochSec : Nat
  expiresAtEpochSec : Nat
  deriving DecidableEq, Repr

/-- What can be presented once. -/
inductive Credential where
  | par (requestUri : String)
  | code (code : String)
  | consent (challengeId : String)
  | refresh (refreshTokenId : String)
  deriving DecidableEq, Repr

/-- The claims of a token that are read or written. -/
structure TokenPayload where
  sub : String
  aud : String
  jti : String
  scope : String
  act : String
  tokenUse : String
  grantId : String
  clientId : String
  jkt : String
  deriving DecidableEq, Repr

/-- The claims of a verified refresh token that are read. -/
structure RefreshPayload where
  tokenUse : Option String
  jti : Option String
  deriving DecidableEq, Repr

structure Session where
  did : String
  canonicalAccountId : String
  deriving DecidableEq, Repr

/-- A time in seconds of the epoch, after its start. -/
abbrev EpochSec := { n : Nat // 0 < n }

/-- The cursor of a set scan: `none` is `0`, another one stands for the members that Redis
has yet to return. -/
abbrev Cursor := Option (List String)

/-! ## Calls

Records are stored under their own ids, so what a `GET` returns has the id asked for. -/

abbrev ParAt (requestUri : String) := { r : ParStoredRequest // r.requestUri = requestUri }

abbrev CodeAt (code : String) := { r : AuthorizationCodeRecord // r.code = code }

abbrev ChallengeAt (challengeId : String) :=
  { r : ConsentChallengeRecord // r.challengeId = challengeId }

abbrev TokenAt (tokenId : String) := { r : RefreshTokenRecord // r.refreshTokenId = tokenId }

inductive Call where
  /-- `Math.floor(Date.now() / 1000)` -/
  | epochSec
  | randomUUID
  | parSet (record : ParStoredRequest) (ttlSec : Nat)
  | parGet (requestUri : String)
  | parDel (requestUri : String)
  | codeSet (record : AuthorizationCodeRecord) (ttlSec : Nat)
  | codeGet (code : String)
  | codeDel (code : String)
  | challengeSet (record : ConsentChallengeRecord) (ttlSec : Nat)
  | challengeGet (challengeId : String)
  | challengeDel (challengeId : String)
  | grantSet (record : GrantRecord)
  /-- `MULTI` with `SET`, `SADD` and `EXPIRE` -/
  | refreshPut (record : RefreshTokenRecord) (ttlSec : Nat)
  | refreshGet (tokenId : String)
  /-- the `GET` at the start of `revoke` -/
  | revokeGet (tokenId : String)
  | refreshSet (record : RefreshTokenRecord) (ttlSec : Nat)
  | familyScan (familyId : String) (cursor : Cursor)
  | refreshMget (tokenIds : List String)
  /-- `MULTI` with one `SET` for each token -/
  | refreshSetAll (writes : List (RefreshTokenRecord × Nat))
  | fetchAndValidate (clientId : String)
  | verifyAccessToken (accessToken : String)
  | jwtVerify (refreshToken : String)
  | signJwt (payload : TokenPayload) (ttlSec : Nat)
  | succeeded (credential : Credential)
  | familyRevoked (familyId : String)

def Reply : Call → Type
  | .epochSec => EpochSec
  | .randomUUID => String
  | .parGet requestUri => Option (ParAt requestUri)
  | .codeGet code => Option (CodeAt code)
  | .challengeGet challengeId => Option (ChallengeAt challengeId)
  | .refreshGet tokenId | .revokeGet tokenId =>
    Option (TokenAt tokenId)
  | .familyScan .. => Cursor × List String
  | .refreshMget _ => (tokenId : String) → Option (TokenAt tokenId)
  /- the redirect URIs of the client -/
  | .fetchAndValidate _ => Except OAuthError (List String)
  | .verifyAccessToken _ => Option Session
  | .jwtVerify _ => Option RefreshPayload
  | .signJwt .. => String
  | _ => Unit

abbrev Run := Prog Call Reply OAuthError

def epochSec : Run EpochSec := .call .epochSec pure

def randomUUID : Run String := .call .randomUUID pure

def succeeded (credential : Credential) : Run Unit := .call (.succeeded credential) pure

/-- `Math.max(1, expiresAtEpochSec - Math.floor(Date.now() / 1000))` -/
def ttlSec (expiresAtEpochSec : Nat) : Run Nat := do
  let now ← epochSec
  pure (max 1 (expiresAtEpochSec - now.1))

/-- `consume` of the three stores: a `GET` and, if it finds something, a `DEL`. -/
def consume {α : Type} (get : Run (Option α)) (del : Run Unit) : Run (Option α) := do
  match ← get with
  | none => pure none
  | some record =>
    del
    pure (some record)

namespace ParStore

def put (record : ParStoredRequest) : Run Unit := do
  let ttl ← ttlSec record.expiresAtEpochSec
  .call (.parSet record ttl) pure

def get (requestUri : String) : Run (Option (ParAt requestUri)) :=
  .call (.parGet requestUri) pure

def del (requestUri : String) : Run Unit := .call (.parDel requestUri) pure

def consume (requestUri : String) :
    Run (Option (ParAt requestUri)) :=
  OAuthAuthorizationServer.consume (get requestUri) (del requestUri)

end ParStore

namespace CodeStore

def put (record : AuthorizationCodeRecord) : Run Unit := do
  let ttl ← ttlSec record.expiresAtEpochSec
  .call (.codeSet record ttl) pure

def get (code : String) : Run (Option (CodeAt code)) :=
  .call (.codeGet code) pure

def del (code : String) : Run Unit := .call (.codeDel code) pure

def consume (code : String) : Run (Option (CodeAt code)) :=
  OAuthAuthorizationServer.consume (get code) (del code)

end CodeStore

namespace ConsentChallengeStore

def mint (requestUri fingerprint : String) (ttlSec : Nat) : Run ConsentChallengeRecord := do
  let challengeId ← randomUUID
  let now ← epochSec
  let record : ConsentChallengeRecord :=
    ⟨challengeId, requestUri, fingerprint, now.1, now.1 + ttlSec⟩
  .call (.challengeSet record (max 1 ttlSec)) fun _ => pure record

def get (challengeId : String) :
    Run (Option (ChallengeAt challengeId)) :=
  .call (.challengeGet challengeId) pure

def del (challengeId : String) : Run Unit := .call (.challengeDel challengeId) pure

def consume (challengeId : String) :
    Run (Option (ChallengeAt challengeId)) :=
  OAuthAuthorizationServer.consume (get challengeId) (del challengeId)

end ConsentChallengeStore

namespace GrantStore

def createOrUpdate (subjectDid canonicalAccountId clientId scope : String) : Run GrantRecord := do
  let now ← epochSec
  let grantId ← randomUUID
  let record : GrantRecord :=
    ⟨grantId, subjectDid, canonicalAccountId, clientId, scope, now.1, now.1⟩
  .call (.grantSet record) fun _ => pure record

end GrantStore

namespace RefreshTokenStore

def put (record : RefreshTokenRecord) : Run Unit := do
  let ttl ← ttlSec record.expiresAtEpochSec
  .call (.refreshPut record ttl) pure

def get (tokenId : String) : Run (Option (TokenAt tokenId)) :=
  .call (.refreshGet tokenId) pure

def revoke (tokenId : String) (revokedAtEpochSec : EpochSec)
    (replacedByTokenId : Option String) : Run Unit :=
  .call (.revokeGet tokenId) fun current =>
    match current with
    | none => pure ()
    | some current => do
      let next : RefreshTokenRecord :=
        { current.1 with
          revokedAtEpochSec := some revokedAtEpochSec.1
          replacedByTokenId := replacedByTokenId }
      let ttl ← ttlSec next.expiresAtEpochSec
      .call (.refreshSet next ttl) pure

def familyBatchSize : Nat := 128

/-- What one batch of `revokeFamily` writes. -/
def revocations (revokedAtEpochSec now : EpochSec) (tokenIds : List String)
    (rawTokens : (tokenId : String) → Option (TokenAt tokenId)) :
    List (RefreshTokenRecord × Nat) :=
  tokenIds.filterMap fun tokenId => (rawTokens tokenId).map fun parsed =>
    ({ parsed.1 with revokedAtEpochSec := some revokedAtEpochSec.1 },
      max 1 (parsed.1.expiresAtEpochSec - now.1))

def revokeBatch (revokedAtEpochSec : EpochSec) (tokenIds : List String) : Run Unit :=
  .call (.refreshMget tokenIds) fun rawTokens => do
    let now ← epochSec
    let writes := revocations revokedAtEpochSec now tokenIds rawTokens
    if writes = [] then pure ()
    else .call (.refreshSetAll writes) pure

/-- The batches of one page; the page is longer than the number of batches left. -/
def revokePage (revokedAtEpochSec : EpochSec) : Nat → List String → Run Unit
  | 0, _ => pure ()
  | batches + 1, tokenIds =>
    if tokenIds = [] then pure ()
    else do
      revokeBatch revokedAtEpochSec (tokenIds.take familyBatchSize)
      revokePage revokedAtEpochSec batches (tokenIds.drop familyBatchSize)

/-- `revokeFamily` where the set is scanned in at most this many pages. -/
def revokeFamily (familyId : String) (revokedAtEpochSec : EpochSec) : Nat → Cursor → Run Unit
  | 0, _ => Prog.fail ⟨"server_error", 500, "unfinished"⟩
  | pages + 1, cursor =>
    .call (.familyScan familyId cursor) fun response => do
      revokePage revokedAtEpochSec response.2.length response.2
      match response.1 with
      | none => pure ()
      | some owed => revokeFamily familyId revokedAtEpochSec pages (some owed)

end RefreshTokenStore

section Server
variable (rt : Runtime) (cfg : Config)

def ensured (value : Option String) (maxLength : Nat) (field : String) : Run String :=
  .done (ensureNonEmptyString rt value maxLength field)

def requestUriPrefix : String := "urn:ietf:params:oauth:request_uri:"

def createPushedAuthorizationRequest (payload : ParInput) (dpopJkt : String) :
    Run (String × Nat) := do
  let clientId ← ensured rt (some payload.clientId) 2048 "client_id"
  let redirectUri ← ensured rt (some payload.redirectUri) 2048 "redirect_uri"
  let scope ← ensured rt (some payload.scope) 1024 "scope"
  let codeChallenge ← ensured rt (some payload.codeChallenge) 256 "code_challenge"
  if "atproto" ∉ rt.words scope then
    Prog.fail ⟨"invalid_scope", 400, "scope must include atproto"⟩
  else
    .call (.fetchAndValidate payload.clientId) fun metadata => do
      let redirectUris ← .done metadata
      if redirectUri ∉ redirectUris then
        Prog.fail ⟨"invalid_request", 400, "redirect_uri is not registered"⟩
      else
        let id ← randomUUID
        let now ← epochSec
        ParStore.put
          { clientId, redirectUri, scope, codeChallenge
            state := payload.state
            requestUri := requestUriPrefix ++ id
            createdAtEpochSec := now.1
            expiresAtEpochSec := now.1 + cfg.parTtlSec
            dpopJkt }
        pure (requestUriPrefix ++ id, cfg.parTtlSec)

/-- `getAuthorizationContext`, as far as its caller reads the result. -/
def getAuthorizationContext (requestUri : String) : Run (Option (String × Nat)) := do
  let normalizedRequestUri ← ensured rt (some requestUri) 4096 "request_uri"
  match ← ParStore.get normalizedRequestUri with
  | none => pure none
  | some par => pure (some (normalizedRequestUri, par.1.expiresAtEpochSec))

def invalidRequestUri : OAuthError :=
  ⟨"invalid_request", 400, "request_uri is invalid or expired"⟩

def authorize (requestUri subjectDid canonicalAccountId : String) :
    Run (String × Option String × String) := do
  let requestUri ← ensured rt (some requestUri) 4096 "request_uri"
  let subjectDid ← ensured rt (some subjectDid) 320 "subject_did"
  let canonicalAccountId ← ensured rt (some canonicalAccountId) 1024 "canonical_account_id"
  match ← ParStore.consume requestUri with
  | none => Prog.fail invalidRequestUri
  | some par =>
    let now ← epochSec
    let grant ← GrantStore.createOrUpdate subjectDid canonicalAccountId par.1.clientId par.1.scope
    let code ← randomUUID
    CodeStore.put
      { code, subjectDid, canonicalAccountId
        clientId := par.1.clientId
        redirectUri := par.1.redirectUri
        scope := par.1.scope
        codeChallenge := par.1.codeChallenge
        grantId := grant.grantId
        createdAtEpochSec := now.1
        expiresAtEpochSec := now.1 + cfg.authCodeTtlSec
        dpopJkt := par.1.dpopJkt }
    succeeded (.par requestUri)
    pure (code, par.1.state, par.1.redirectUri)

def reject (requestUri : String) : Run (Option String × String) := do
  let normalizedRequestUri ← ensured rt (some requestUri) 4096 "request_uri"
  match ← ParStore.consume normalizedRequestUri with
  | none => Prog.fail invalidRequestUri
  | some par =>
    succeeded (.par normalizedRequestUri)
    pure (par.1.state, par.1.redirectUri)

structure TokenPair where
  accessToken : String
  expiresIn : Nat
  scope : String
  refreshToken : String
  deriving DecidableEq, Repr

/-- The input of `issueTokenPair`. -/
structure IssueInput where
  subjectDid : String
  canonicalAccountId : String
  clientId : String
  scope : String
  grantId : String
  dpopJkt : String
  familyId : String
  replacedTokenId : Option String

def issueTokenPair (input : IssueInput) : Run TokenPair := do
  let accessJti ← randomUUID
  let refreshJti ← randomUUID
  let payload (aud jti tokenUse : String) : TokenPayload :=
    { sub := input.subjectDid, aud, jti, scope := input.scope, act := input.canonicalAccountId
      tokenUse, grantId := input.grantId, clientId := input.clientId, jkt := input.dpopJkt }
  let accessToken ← .call (.signJwt (payload cfg.resourceServerOrigin accessJti "access")
    cfg.accessTokenTtlSec) pure
  let refreshToken ← .call (.signJwt (payload cfg.authorizationServerOrigin refreshJti "refresh")
    cfg.refreshTokenTtlSec) pure
  let now ← epochSec
  RefreshTokenStore.put
    { refreshTokenId := refreshJti
      familyId := input.familyId
      grantId := input.grantId
      subjectDid := input.subjectDid
      canonicalAccountId := input.canonicalAccountId
      clientId := input.clientId
      scope := input.scope
      issuedAtEpochSec := now.1
      expiresAtEpochSec := now.1 + cfg.refreshTokenTtlSec
      revokedAtEpochSec := none
      replacedByTokenId := input.replacedTokenId
      dpopJkt := input.dpopJkt }
  pure ⟨accessToken, cfg.accessTokenTtlSec, input.scope, refreshToken⟩

structure TokenExchangeInput where
  grantType : Option String
  clientId : Option String
  redirectUri : Option String
  code : Option String
  codeVerifier : Option String
  refreshToken : Option String
  deriving DecidableEq, Repr

/-- The checks on a code after it was consumed. -/
def codeChecks (record : AuthorizationCodeRecord)
    (clientId redirectUri codeVerifier dpopJkt : String) : Except OAuthError Unit :=
  if record.clientId ≠ clientId then
    .error ⟨"invalid_client", 401, "client_id does not match code"⟩
  else if record.redirectUri ≠ redirectUri then
    .error ⟨"invalid_grant", 400, "redirect_uri mismatch"⟩
  else if rt.sha256base64url codeVerifier ≠ record.codeChallenge then
    .error ⟨"invalid_grant", 400, "code_verifier is invalid"⟩
  else if record.dpopJkt ≠ "" ∧ record.dpopJkt ≠ dpopJkt then
    .error ⟨"invalid_dpop_proof", 401, "DPoP key binding mismatch"⟩
  else .ok ()

def exchangeAuthorizationCode (input : TokenExchangeInput) (clientId dpopJkt : String) :
    Run TokenPair := do
  let code := input.code.getD ""
  let redirectUri := input.redirectUri.getD ""
  let codeVerifier := input.codeVerifier.getD ""
  if code = "" ∨ redirectUri = "" ∨ codeVerifier = "" then
    Prog.fail ⟨"invalid_request", 400, "authorization_code exchange is missing required fields"⟩
  else
    match ← CodeStore.consume code with
    | none => Prog.fail ⟨"invalid_grant", 400, "authorization code is invalid or expired"⟩
    | some codeRecord =>
      .done (codeChecks rt codeRecord.1 clientId redirectUri codeVerifier dpopJkt)
      let familyId ← randomUUID
      let pair ← issueTokenPair cfg
        { subjectDid := codeRecord.1.subjectDid
          canonicalAccountId := codeRecord.1.canonicalAccountId
          clientId := codeRecord.1.clientId
          scope := codeRecord.1.scope
          grantId := codeRecord.1.grantId
          dpopJkt, familyId
          replacedTokenId := none }
      succeeded (.code code)
      pure pair

/-- The checks on a refresh token and its record. -/
def refreshChecks {tokenId : String} (clientId dpopJkt : String)
    (current : Option (TokenAt tokenId)) :
    Except OAuthError (TokenAt tokenId) :=
  match current with
  | none => .error ⟨"invalid_grant", 400, "refresh_token is revoked or unknown"⟩
  | some record =>
    if record.1.isRevoked then
      .error ⟨"invalid_grant", 400, "refresh_token is revoked or unknown"⟩
    else if record.1.clientId ≠ clientId then
      .error ⟨"invalid_client", 401, "client_id does not match refresh token"⟩
    else if record.1.dpopJkt ≠ "" ∧ record.1.dpopJkt ≠ dpopJkt then
      .error ⟨"invalid_dpop_proof", 401, "DPoP key binding mismatch"⟩
    else .ok record

/-- The token id of a refresh token: its verification and the checks on its claims. -/
def refreshTokenIdOf (payload : Option RefreshPayload) : Except OAuthError String :=
  match payload with
  | none => .error ⟨"invalid_grant", 400, "refresh_token is invalid"⟩
  | some payload =>
    if payload.tokenUse ≠ some "refresh" then
      .error ⟨"invalid_grant", 400, "token_use is invalid for refresh exchange"⟩
    else
      let refreshTokenId := payload.jti.getD ""
      if refreshTokenId = "" then .error ⟨"invalid_grant", 400, "refresh_token jti is missing"⟩
      else .ok refreshTokenId

def exchangeRefreshToken (input : TokenExchangeInput) (clientId dpopJkt : String) :
    Run TokenPair := do
  let refreshToken := input.refreshToken.getD ""
  if refreshToken = "" then
    Prog.fail ⟨"invalid_request", 400, "refresh_token is required"⟩
  else
    let payload ← .call (.jwtVerify refreshToken) pure
    let refreshTokenId ← .done (refreshTokenIdOf payload)
    let found ← RefreshTokenStore.get refreshTokenId
    let current ← .done (refreshChecks clientId dpopJkt found)
    let now ← epochSec
    RefreshTokenStore.revoke current.1.refreshTokenId now none
    let pair ← issueTokenPair cfg
      { subjectDid := current.1.subjectDid
        canonicalAccountId := current.1.canonicalAccountId
        clientId := current.1.clientId
        scope := current.1.scope
        grantId := current.1.grantId
        dpopJkt
        familyId := current.1.familyId
        replacedTokenId := some current.1.refreshTokenId }
    succeeded (.refresh refreshTokenId)
    pure pair

def exchangeToken (input : TokenExchangeInput) (clientId dpopJkt : String) : Run TokenPair :=
  if input.grantType = some "refresh_token" then exchangeRefreshToken cfg input clientId dpopJkt
  else exchangeAuthorizationCode rt cfg input clientId dpopJkt

/-- A body or a query: members that are missing or not a string are `none`. -/
structure ParBody where
  clientId : Option String
  redirectUri : Option String
  scope : Option String
  state : Option String
  codeChallenge : Option String
  deriving DecidableEq, Repr

structure DecisionBody where
  requestUri : Option String
  consentChallenge : Option String
  decision : Option String
  deriving DecidableEq, Repr

/-- `POST /oauth/par` -/
def postPar (body : ParBody) (dpopJkt : String) : Run (String × Nat) := do
  let clientId ← ensured rt body.clientId 2048 "client_id"
  let redirectUri ← ensured rt body.redirectUri 2048 "redirect_uri"
  let scope ← ensured rt body.scope 1024 "scope"
  let codeChallenge ← ensured rt body.codeChallenge 256 "code_challenge"
  createPushedAuthorizationRequest rt cfg
    ⟨clientId, redirectUri, scope, body.state, codeChallenge⟩ dpopJkt

/-- `GET /oauth/authorize` -/
def getAuthorize (requestUri : Option String) (fingerprint : String) :
    Run ConsentChallengeRecord := do
  let requestUri ← ensured rt requestUri 4096 "request_uri"
  match ← getAuthorizationContext rt requestUri with
  | none => Prog.fail invalidRequestUri
  | some context =>
    let now ← epochSec
    ConsentChallengeStore.mint requestUri fingerprint (max 30 (min 300 (context.2 - now.1)))

/-- The bearer token of an `Authorization` header. -/
def bearerToken (authorization : String) : String :=
  if authorization.startsWith "Bearer " then
    rt.trim (String.ofList (authorization.toList.drop 7))
  else ""

/-- `POST /oauth/authorize` up to the redirect; the results are its query parameters. -/
def postAuthorize (body : DecisionBody) (fingerprint authorization : String) :
    Run (Option String × Option String × String) := do
  let requestUri ← ensured rt body.requestUri 4096 "request_uri"
  let consentChallenge ← ensured rt body.consentChallenge 128 "consent_challenge"
  let given ← ensured rt body.decision 16 "decision"
  let decision := rt.toLowerCase given
  if decision ≠ "approve" ∧ decision ≠ "deny" then
    Prog.fail ⟨"invalid_request", 400, "decision must be approve or deny"⟩
  else
    match ← ConsentChallengeStore.consume consentChallenge with
    | none => Prog.fail ⟨"access_denied", 400, "consent challenge is invalid or expired"⟩
    | some challengeRecord =>
      succeeded (.consent consentChallenge)
      if challengeRecord.1.requestUri ≠ requestUri then
        Prog.fail ⟨"access_denied", 400, "consent challenge request mismatch"⟩
      else if challengeRecord.1.fingerprint ≠ fingerprint then
        Prog.fail ⟨"access_denied", 400, "consent challenge fingerprint mismatch"⟩
      else if decision = "deny" then
        let denied ← reject rt requestUri
        pure (none, denied)
      else
        let accessToken := bearerToken rt authorization
        if accessToken = "" then
          Prog.fail ⟨"access_denied", 401,
            "Authenticated user session is required to approve authorization"⟩
        else
          match ← .call (.verifyAccessToken accessToken) pure with
          | none =>
            Prog.fail ⟨"access_denied", 401, "Authenticated user session is invalid or expired"⟩
          | some session =>
            let result ← authorize rt cfg requestUri session.did session.canonicalAccountId
            pure (some result.1, result.2)

/-- `POST /oauth/token` -/
def postToken (input : TokenExchangeInput) (dpopJkt : String) : Run TokenPair := do
  let clientId ← ensured rt input.clientId 2048 "client_id"
  exchangeToken rt cfg input clientId dpopJkt

/-- A request, or a call of the store's revocations. -/
inductive Request where
  | par (body : ParBody) (dpopJkt : String)
  | context (requestUri : Option String) (fingerprint : String)
  | decide (body : DecisionBody) (fingerprint authorization : String)
  | token (input : TokenExchangeInput) (dpopJkt : String)
  | revoke (tokenId : String) (revokedAtEpochSec : EpochSec)
  | revokeFamily (familyId : String) (revokedAtEpochSec : EpochSec) (pages : Nat)
  deriving DecidableEq, Repr

def handle : Request → Run Unit
  | .par body dpopJkt => do
    let _ ← postPar rt cfg body dpopJkt
  | .context requestUri fingerprint => do
    let _ ← getAuthorize rt requestUri fingerprint
  | .decide body fingerprint authorization => do
    let _ ← postAuthorize rt cfg body fingerprint authorization
  | .token input dpopJkt => do
    let _ ← postToken rt cfg input dpopJkt
  | .revoke tokenId revokedAtEpochSec => RefreshTokenStore.revoke tokenId revokedAtEpochSec none
  | .revokeFamily familyId revokedAtEpochSec pages => do
    RefreshTokenStore.revokeFamily familyId revokedAtEpochSec pages none
    .call (.familyRevoked familyId) pure

end Server

/-- The keys in Redis; `families` pairs a family with the members of its set. The rest is
read by nothing: the texts drawn, those under which a record was stored, the credentials
that a request deleted or revoked, those that served their purpose, the families whose
revocation began, and those where it returned. -/
structure Store where
  pars : List ParStoredRequest
  codes : List AuthorizationCodeRecord
  challenges : List ConsentChallengeRecord
  refresh : List RefreshTokenRecord
  families : List (String × String)
  drawn : List String
  issued : List String
  taken : List Credential
  used : List Credential
  revoking : List String
  revokedFamilies : List String
  deriving DecidableEq

/-- The random text in a credential. -/
def Credential.text : Credential → String
  | .par requestUri => String.ofList (requestUri.toList.drop requestUriPrefix.length)
  | .code id | .consent id | .refresh id => id

/-- The request presents a credential to be used. -/
def Request.consumes : Request → Bool
  | .revoke .. | .revokeFamily .. => false
  | _ => true

/-- A key that Redis removes at its deadline. -/
inductive Expiry where
  | par (requestUri : String)
  | code (code : String)
  | consent (challengeId : String)
  | refresh (tokenId : String)
  | family (familyId : String)
  deriving DecidableEq, Repr

namespace Store

def empty : Store := ⟨[], [], [], [], [], [], [], [], [], [], []⟩

def members (s : Store) (familyId : String) : List String :=
  (s.families.filter (·.1 = familyId)).map (·.2)

/-- The credential is deleted or revoked by this request. -/
def take (s : Store) (request : Request) (credential : Credential) : Store :=
  if request.consumes then { s with taken := credential :: s.taken } else s

def setRefresh (s : Store) (record : RefreshTokenRecord) : Store :=
  { s with refresh := put (·.refreshTokenId) s.refresh record }

def setAll (s : Store) (writes : List (RefreshTokenRecord × Nat)) : Store :=
  writes.foldl (fun s write => s.setRefresh write.1) s

/-- The members that a scan at this cursor has yet to return after a page. -/
def owed (s : Store) (familyId : String) (cursor : Cursor) (page : List String) : List String :=
  (cursor.getD (s.members familyId)).filter fun id => id ∈ s.members familyId ∧ id ∉ page

def beginRevoking (s : Store) (familyId : String) (cursor : Cursor) : Store :=
  if cursor = none then { s with revoking := familyId :: s.revoking } else s

/-- What a call replies and changes. A scan returns every member that stays for the whole of
it; a random text was not drawn before. -/
def Effect (request : Request) : (c : Call) → Store → Reply c → Store → Prop
  | .epochSec, s, _, t => t = s
  | .randomUUID, s, reply, t => reply ∉ s.drawn ∧ t = { s with drawn := reply :: s.drawn }
  | .parSet record _, s, _, t =>
    t = { s with
      pars := put (·.requestUri) s.pars record
      issued := (Credential.par record.requestUri).text :: s.issued }
  | .parGet requestUri, s, reply, t => reply = lookup (·.requestUri) s.pars requestUri ∧ t = s
  | .parDel requestUri, s, _, t =>
    t = ({ s with pars := erase (·.requestUri) s.pars requestUri }).take request (.par requestUri)
  | .codeSet record _, s, _, t =>
    t = { s with codes := put (·.code) s.codes record, issued := record.code :: s.issued }
  | .codeGet code, s, reply, t => reply = lookup (·.code) s.codes code ∧ t = s
  | .codeDel code, s, _, t =>
    t = ({ s with codes := erase (·.code) s.codes code }).take request (.code code)
  | .challengeSet record _, s, _, t =>
    t = { s with
      challenges := put (·.challengeId) s.challenges record
      issued := record.challengeId :: s.issued }
  | .challengeGet challengeId, s, reply, t =>
    reply = lookup (·.challengeId) s.challenges challengeId ∧ t = s
  | .challengeDel challengeId, s, _, t =>
    t = ({ s with challenges := erase (·.challengeId) s.challenges challengeId }).take request
      (.consent challengeId)
  | .refreshPut record _, s, _, t =>
    t = { s.setRefresh record with
      families := (record.familyId, record.refreshTokenId) :: s.families
      issued := record.refreshTokenId :: s.issued }
  | .refreshGet tokenId, s, reply, t => reply = lookup (·.refreshTokenId) s.refresh tokenId ∧ t = s
  | .revokeGet tokenId, s, reply, t =>
    reply = lookup (·.refreshTokenId) s.refresh tokenId ∧
      t = if reply.isNone then s.take request (.refresh tokenId) else s
  | .refreshSet record _, s, _, t =>
    t = (s.setRefresh record).take request (.refresh record.refreshTokenId)
  | .familyScan familyId cursor, s, reply, t =>
    (∀ id ∈ reply.2, id ∈ s.members familyId) ∧
      (match reply.1 with
        | none => s.owed familyId cursor reply.2 = []
        | some left => left = s.owed familyId cursor reply.2) ∧
      t = s.beginRevoking familyId cursor
  | .refreshMget tokenIds, s, reply, t =>
    (∀ tokenId ∈ tokenIds, reply tokenId = lookup (·.refreshTokenId) s.refresh tokenId) ∧ t = s
  | .refreshSetAll writes, s, _, t => t = s.setAll writes
  | .grantSet _, s, _, t | .fetchAndValidate _, s, _, t | .verifyAccessToken _, s, _, t
  | .jwtVerify _, s, _, t | .signJwt .., s, _, t => t = s
  | .succeeded credential, s, _, t => t = { s with used := credential :: s.used }
  | .familyRevoked familyId, s, _, t =>
    t = { s with revokedFamilies := familyId :: s.revokedFamilies }

/-- One outcome of each call: every client and session is known, a refresh token reads as its
own id, and a scan returns all members at once. -/
def perform (request : Request) : (c : Call) → Store → Option (Reply c × Store)
  | .epochSec, s => some (⟨1000, by decide⟩, s)
  | .randomUUID, s =>
    let text := String.ofList (List.replicate (s.drawn.length + 1) 'n')
    if text ∈ s.drawn then none else some (text, { s with drawn := text :: s.drawn })
  | .parSet record _, s =>
    some ((), { s with
      pars := put (·.requestUri) s.pars record
      issued := (Credential.par record.requestUri).text :: s.issued })
  | .parGet requestUri, s => some ((lookup (·.requestUri) s.pars requestUri : Option (ParAt requestUri)), s)
  | .parDel requestUri, s =>
    some ((), ({ s with pars := erase (·.requestUri) s.pars requestUri }).take request
      (.par requestUri))
  | .codeSet record _, s =>
    some ((), { s with codes := put (·.code) s.codes record, issued := record.code :: s.issued })
  | .codeGet code, s => some ((lookup (·.code) s.codes code : Option (CodeAt code)), s)
  | .codeDel code, s =>
    some ((), ({ s with codes := erase (·.code) s.codes code }).take request (.code code))
  | .challengeSet record _, s =>
    some ((), { s with
      challenges := put (·.challengeId) s.challenges record
      issued := record.challengeId :: s.issued })
  | .challengeGet challengeId, s =>
    let found : Option (ChallengeAt challengeId) := lookup (·.challengeId) s.challenges challengeId
    some (found, s)
  | .challengeDel challengeId, s =>
    some ((), ({ s with challenges := erase (·.challengeId) s.challenges challengeId }).take request
      (.consent challengeId))
  | .refreshPut record _, s =>
    some ((), { s.setRefresh record with
      families := (record.familyId, record.refreshTokenId) :: s.families
      issued := record.refreshTokenId :: s.issued })
  | .refreshGet tokenId, s => some ((lookup (·.refreshTokenId) s.refresh tokenId : Option (TokenAt tokenId)), s)
  | .revokeGet tokenId, s =>
    let found : Option (TokenAt tokenId) := lookup (·.refreshTokenId) s.refresh tokenId
    some (found, if found.isNone then s.take request (.refresh tokenId) else s)
  | .refreshSet record _, s =>
    some ((), (s.setRefresh record).take request (.refresh record.refreshTokenId))
  | .familyScan familyId cursor, s =>
    some ((none, s.members familyId), s.beginRevoking familyId cursor)
  | .refreshMget _, s =>
    let found : (tokenId : String) → Option (TokenAt tokenId) := lookup (·.refreshTokenId) s.refresh
    some (found, s)
  | .refreshSetAll writes, s => some ((), s.setAll writes)
  | .grantSet _, s => some ((), s)
  | .fetchAndValidate _, s => some (.ok ["https://client.example/callback"], s)
  | .verifyAccessToken _, s => some (some ⟨"did:plc:alice", "account:alice"⟩, s)
  | .jwtVerify refreshToken, s => some (some ⟨some "refresh", some refreshToken⟩, s)
  | .signJwt payload _, s => some (payload.jti, s)
  | .succeeded credential, s => some ((), { s with used := credential :: s.used })
  | .familyRevoked familyId, s =>
    some ((), { s with revokedFamilies := familyId :: s.revokedFamilies })

theorem owed_all (s : Store) (familyId : String) (cursor : Cursor) :
    s.owed familyId cursor (s.members familyId) = [] := by
  unfold owed
  rw [List.filter_eq_nil_iff]
  intro id _
  simp

theorem effect_of_perform {request : Request} {c : Call} {s t : Store} {reply : Reply c}
    (performed : perform request c s = some (reply, t)) : Effect request c s reply t := by
  cases c with
  | randomUUID =>
    simp only [perform, Option.ite_none_left_eq_some, Option.some.injEq] at performed
    obtain ⟨fresh, rfl, rfl⟩ := performed
    exact ⟨fresh, rfl⟩
  | familyScan familyId cursor =>
    cases performed
    exact ⟨fun _ listed => listed, owed_all s familyId cursor, rfl⟩
  | refreshMget =>
    cases performed
    exact ⟨fun _ _ => rfl, rfl⟩
  | parGet | codeGet | challengeGet | refreshGet | revokeGet =>
    cases performed
    exact ⟨rfl, rfl⟩
  | _ =>
    cases performed
    rfl

def expire (s : Store) : Expiry → Store
  | .par requestUri => { s with pars := erase (·.requestUri) s.pars requestUri }
  | .code code => { s with codes := erase (·.code) s.codes code }
  | .consent challengeId =>
    { s with challenges := erase (·.challengeId) s.challenges challengeId }
  | .refresh tokenId => { s with refresh := erase (·.refreshTokenId) s.refresh tokenId }
  | .family familyId => { s with families := s.families.filter (·.1 ≠ familyId) }

end Store

/-- Any number of requests and revocations, with keys expiring between their steps. -/
def oauthSystem (rt : Runtime) (cfg : Config) :
    Lib.WorkerPool.System Store Request Expiry Call Reply OAuthError Unit where
  effect := Store.Effect
  starts _ worker := worker.program = handle rt cfg worker.tag
  acts expiry s t := t = s.expire expiry

end MastopodFederation.Source.OAuthAuthorizationServer
