import MastopodFederation.Lib.Assignments
import MastopodFederation.Source.ProtocolBridgeRuntime

/-!
# Projected writes

`apply` of AtprotoWriteGatewayPort.ts under `withRetry` of Retry.ts, for one active
local account with a DID, a handle and a repository, down to what the writes leave:
DefaultAtWriteNormalizer.ts, the rules of DefaultAtWritePolicyGate.ts that such an
account can break, DefaultCanonicalClientWriteService.ts, DefaultAtProjectionWorker and
the alias store, which lists aliases in the order in which they were first put.

A command resolves to the operations it commits; a committed operation puts one alias
and writes or removes one record. Of a deleted alias only its id is kept. Serializers,
media resolution, the sanitizer and the identity bindings are parameters.
-/
namespace MastopodFederation.Source.AtprotoWriteGatewayPort
open Lib.LuaTable Lib.Assignments Retry ProtocolBridgeRuntime

inductive Collection where
  | post | document | profile | follow | like | repost | emojiReaction
  deriving DecidableEq

def Collection.nsid : Collection → String
  | .post => "app.bsky.feed.post"
  | .document => "site.standard.document"
  | .profile => "app.bsky.actor.profile"
  | .follow => "app.bsky.graph.follow"
  | .like => "app.bsky.feed.like"
  | .repost => "app.bsky.feed.repost"
  | .emojiReaction => "org.activitypods.emojiReaction"

inductive Kind where
  | createRecord | updateRecord | deleteRecord
  deriving DecidableEq

def Kind.text : Kind → String
  | .createRecord => "createRecord"
  | .updateRecord => "updateRecord"
  | .deleteRecord => "deleteRecord"

structure Command where
  kind : Kind
  collection : Collection
  rkey : Option String := none
  record : Option Entries := none
  canonicalRefIdHint : Option String := none
  metadata : Option Json := none

/-- A string that JavaScript takes as true. -/
def filled (text : Option String) : Option String := text.filter (· ≠ "")

structure AliasRecord where
  did : String
  collection : Collection
  rkey : String
  hasCid : Bool
  deriving DecidableEq

/-- The alias store, where a deleted alias has no entry left, and the records of the
account's repository. -/
structure State where
  aliases : OrderedMap String (Option AliasRecord)
  live : Collection × String → Option Json

/-- One committed operation; a deletion writes no record. -/
structure Op where
  canonicalRefId : String
  target : AliasRecord
  record : Option Json

def Op.aliasWrite (op : Op) : String × Option AliasRecord :=
  (op.canonicalRefId, if op.record.isSome then some { op.target with hasCid := true } else none)

def Op.recordWrite (op : Op) : (Collection × String) × Option Json :=
  ((op.target.collection, op.target.rkey), op.record)

def commit (ops : List Op) (s : State) : State where
  aliases := s.aliases.putAll (ops.map Op.aliasWrite)
  live := assign s.live (ops.map Op.recordWrite)

/-- The first active alias of a record. -/
def findAlias (s : State) (did collection rkey : String) : Option String :=
  s.aliases.order.find? fun id => match s.aliases.entry id with
    | some a => a.did = did && a.collection.nsid = collection && a.rkey = rkey
    | none => false

def adapterError (code message : String) : Thrown :=
  .object { code := some code, name := some "ProtocolBridgeAdapterError", message := some message,
            status := some 400 }

def xrpcError (status : Rat) (message : String) : Thrown :=
  .object { name := some "XrpcError", message := some message, status := some status }

def plainError (message : String) : Thrown :=
  .object { name := some "Error", message := some message }

def writeTimeout : Thrown := xrpcError 503 "Write result not available; retry the request"

structure EmojiReaction where
  uri : String
  reaction : String
  record : Json

structure Environment where
  did : String
  canonicalAccountId : String
  allowPostEditing : Bool
  maxCommandsPerBatch : Nat
  sanitize : Entries → Except Thrown Entries
  attachMedia : Command → Entries → Except Thrown Entries
  followedDid : String → Option String
  parseEmojiReaction : Entries → Option EmojiReaction
  postRecord : Collection → Entries → Json
  teaserRecord : Entries → Json
  profileRecord : Entries → Json
  teaserRkey : String → String

/-- What a call draws: `randomUUID()` and a TID. -/
structure Draws where
  canonicalRefId : String
  rkey : String

def setEntry (key : String) (value : Json) (entries : Entries) : Entries :=
  (key, value) :: entries.filter (·.1 ≠ key)

def setOptional (key : String) (value : Option Json) (entries : Entries) : Entries :=
  match value with
  | some value => setEntry key value entries
  | none => entries

/-- `_str` -/
def textField (payload : Entries) (key : String) : Option String :=
  match payload.lookup key with
  | some (.str value) => some value
  | _ => none

def asBridgeMetadata : Option Json → Bool
  | some (.obj candidate) =>
    isString (candidate.lookup "canonicalIntentId") &&
      (isText "activitypub" (candidate.lookup "sourceProtocol") ||
        isText "atproto" (candidate.lookup "sourceProtocol")) &&
      match candidate.lookup "provenance" with
      | some (.obj provenance) =>
        (isText "activitypub" (provenance.lookup "originProtocol") ||
          isText "atproto" (provenance.lookup "originProtocol")) &&
          isString (provenance.lookup "originEventId") &&
          (isText "native" (provenance.lookup "projectionMode") ||
            isText "mirrored" (provenance.lookup "projectionMode"))
      | _ => false
  | _ => false

/-- `1-256 characters, alphanumeric + hyphen`, and the underscore -/
def validateRkey (rkey : String) : Bool :=
  rkey ≠ "" && rkey.length ≤ 256 &&
    rkey.toList.all fun c => c.isAlphanum || c = '_' || c = '-'

section Commands
variable (env : Environment)

def prepareCommand (cmd : Command) : Except Thrown Command := do
  if cmd.kind ≠ .deleteRecord && cmd.record.isNone then
    throw (adapterError "AT_BRIDGE_RECORD_REQUIRED"
      s!"ATProto {cmd.kind.text} requires a record payload for {cmd.collection.nsid}.")
  if cmd.kind ≠ .createRecord && (filled cmd.rkey).isNone then
    throw (adapterError "AT_BRIDGE_RKEY_REQUIRED"
      s!"ATProto {cmd.kind.text} requires an rkey for {cmd.collection.nsid}.")
  if (filled cmd.rkey).any (!validateRkey ·) then
    throw (adapterError "AT_BRIDGE_RKEY_INVALID"
      s!"ATProto {cmd.kind.text} received an invalid rkey for {cmd.collection.nsid}.")
  match cmd.record with
  | some record => return { cmd with record := some (← env.sanitize record) }
  | none => return cmd

def buildNativeRecord (cmd : Command) : Except Thrown Entries := do
  let record ← env.attachMedia cmd (cmd.record.getD [])
  env.sanitize (setOptional "_bridgeMetadata" cmd.metadata
    (setOptional "_bridgeCanonicalRefId" ((filled cmd.canonicalRefIdHint).map .str) record))

/-- The coordinates that a normalized payload carries beside the record. -/
def payloadOf (cmd : Command) (operation : String) (record : Entries) : Entries :=
  setOptional "_rkey" ((filled cmd.rkey).map .str)
    (setEntry "_operation" (.str operation)
      (setEntry "_collection" (.str cmd.collection.nsid) (setEntry "_atRepo" (.str env.did) record)))

def deletePayload (cmd : Command) : Except Thrown Entries := do
  let metadata ← match cmd.metadata with
    | some (.obj entries) => pure (some (Json.obj (← env.sanitize entries)))
    | other => pure other
  return payloadOf env cmd "delete" (setOptional "_bridgeMetadata" metadata
    (setOptional "_bridgeCanonicalRefId" ((filled cmd.canonicalRefIdHint).map .str) []))

/-- What a call commits, and the alias whose result the gateway waits for. -/
structure Written where
  ops : List Op
  awaited : Option String

/-- An alias of the account that has to be put first has no CID yet. -/
def newAlias (collection : Collection) (rkey : String) : AliasRecord :=
  ⟨env.did, collection, rkey, false⟩

/-- The active alias of the id, or one at the locator. -/
def ensureAliasForLocator (s : State) (canonicalRefId : String) (collection : Collection)
    (rkey : String) : AliasRecord :=
  (s.aliases.entry canonicalRefId).getD (newAlias env collection rkey)

def teaserRefId (articleRefId : String) : String := articleRefId ++ "::teaser"

/-- Articles that did not come over the bridge have a teaser post. -/
def generatesTeaser (collection : Collection) (payload : Entries) : Bool :=
  collection = .document && !asBridgeMetadata (payload.lookup "_bridgeMetadata")

def requestedRkey (payload : Entries) (draws : Draws) : String :=
  (filled (textField payload "_rkey")).getD draws.rkey

def createRefId (payload : Entries) (draws : Draws) : String :=
  (textField payload "_bridgeCanonicalRefId").getD draws.canonicalRefId

def onPostCreated (collection : Collection) (payload : Entries) (draws : Draws) : Written :=
  let canonicalRefId := createRefId payload draws
  let rkey := requestedRkey payload draws
  let post : Op :=
    ⟨canonicalRefId, newAlias env collection rkey, some (env.postRecord collection payload)⟩
  let teaser : Op :=
    ⟨teaserRefId canonicalRefId, newAlias env .post (env.teaserRkey rkey),
      some (env.teaserRecord payload)⟩
  ⟨if generatesTeaser collection payload then [post, teaser] else [post], some canonicalRefId⟩

/-- The operations on an article's alias, and on its teaser's. -/
def articleOps (s : State) (canonicalRefId : String) (target : AliasRecord) (teaser : Bool)
    (record teaserRecord : Option Json) : List Op :=
  let post : Op := ⟨canonicalRefId, target, record⟩
  if target.collection = .document && teaser then
    let teaserAlias :=
      ensureAliasForLocator env s (teaserRefId canonicalRefId) .post (env.teaserRkey target.rkey)
    [post, ⟨teaserRefId canonicalRefId, teaserAlias, teaserRecord⟩]
  else [post]

def resolveCanonicalRefIdForPostUpdate (s : State) (collection : Collection) (payload : Entries) :
    Except Thrown String :=
  let rkey := (textField payload "_rkey").getD ""
  match filled (textField payload "_bridgeCanonicalRefId") with
  | some explicit => .ok explicit
  | none =>
    match findAlias s env.did collection.nsid rkey with
    | some canonicalRefId => .ok canonicalRefId
    | none =>
      .error (plainError
        s!"post_update: no active alias exists for at://{env.did}/{collection.nsid}/{rkey}")

def onPostUpdated (s : State) (collection : Collection) (payload : Entries) :
    Except Thrown Written := do
  let canonicalRefId ← resolveCanonicalRefIdForPostUpdate env s collection payload
  let target := ensureAliasForLocator env s canonicalRefId collection
    ((textField payload "_rkey").getD "")
  return ⟨articleOps env s canonicalRefId target (generatesTeaser collection payload)
    (some (env.postRecord target.collection payload)) (some (env.teaserRecord payload)),
    some canonicalRefId⟩

/-- The profile has a fixed id and a fixed key. -/
def onProfileUpserted (payload : Entries) : Written :=
  ⟨[⟨env.canonicalAccountId, newAlias env .profile "self", some (env.profileRecord payload)⟩],
    some env.canonicalAccountId⟩

def socialRecord (collection : Collection) (subject : Json) : Json :=
  .obj [("$type", .str collection.nsid), ("subject", subject)]

/-- A social action commits one record, or nothing where its target is not known. -/
def onSocialCreated (collection : Collection) (payload : Entries) (draws : Draws)
    (record : Option Json) : Written :=
  let canonicalRefId := createRefId payload draws
  let target := newAlias env collection (requestedRkey payload draws)
  ⟨match record with
    | some record => [⟨canonicalRefId, target, some record⟩]
    | none => [], some canonicalRefId⟩

def applyFollowCreate (payload : Entries) (draws : Draws) : Except Thrown Written :=
  match filled (textField payload "subject") with
  | none => .error (plainError "follow_create: subject (DID) is required in payload")
  | some subject =>
    let record := (env.followedDid subject).map fun did => socialRecord .follow (.str did)
    .ok (onSocialCreated env .follow payload draws record)

/-- `at://did/collection/rkey` -/
def parseAtUri (uri : String) : Option (String × String × String) :=
  match uri.splitOn "/" with
  | ["at:", "", did, collection, rkey] =>
    if did ≠ "" && collection ≠ "" && rkey ≠ "" then some (did, collection, rkey) else none
  | _ => none

def resolveAliasByUri (s : State) (uri : String) : Option String :=
  (parseAtUri uri).bind fun (did, collection, rkey) => findAlias s did collection rkey

/-- The URI of an active post alias with a CID. -/
def resolvePostStrongRef (s : State) (canonicalPostId : String) : Option String :=
  match s.aliases.entry canonicalPostId with
  | some a =>
    if a.collection = .post && a.hasCid then some s!"at://{a.did}/{a.collection.nsid}/{a.rkey}"
    else none
  | none => none

def subjectUri (payload : Entries) : Option String :=
  match payload.lookup "subject" with
  | some (.obj subject) => filled (textField subject "uri")
  | _ => none

/-- Likes and reposts. -/
def applySubjectCreate (s : State) (collection : Collection) (mutationType : String)
    (payload : Entries) (draws : Draws) : Except Thrown Written :=
  match subjectUri payload with
  | none => .error (plainError s!"{mutationType}: subject.uri is required in payload")
  | some uri =>
    let subject := resolvePostStrongRef s ((resolveAliasByUri s uri).getD uri)
    let record := subject.map fun uri => socialRecord collection (.obj [("uri", .str uri)])
    .ok (onSocialCreated env collection payload draws record)

def applyEmojiReactionCreate (payload : Entries) (draws : Draws) : Except Thrown Written :=
  match env.parseEmojiReaction payload with
  | none => .error (plainError "emoji_reaction_create: subject.uri is required in payload")
  | some parsed =>
    if parsed.uri = "" then
      .error (plainError "emoji_reaction_create: subject.uri is required in payload")
    else if parsed.reaction = "" then
      .error (plainError "emoji_reaction_create: reaction is required in payload")
    else .ok (onSocialCreated env .emojiReaction payload draws (some parsed.record))

/-- `createRecord` and `putRecord`; only posts and articles tell an update from a create. -/
def writeRecord (s : State) (cmd : Command) (draws : Draws) (update : Bool) :
    Except Thrown Written := do
  let record ← buildNativeRecord env cmd
  let payload := payloadOf env cmd (if update then "update" else "create") record
  match cmd.collection with
  | .post | .document =>
    if update then
      if env.allowPostEditing then onPostUpdated env s cmd.collection payload
      else throw (xrpcError 403 "Post editing is not supported on the canonical write path.")
    else return onPostCreated env cmd.collection payload draws
  | .profile => return onProfileUpserted env payload
  | .follow => applyFollowCreate env payload draws
  | .like => applySubjectCreate env s .like "like_create" payload draws
  | .repost => applySubjectCreate env s .repost "repost_create" payload draws
  | .emojiReaction => applyEmojiReactionCreate env payload draws

def notProjectedHere (collection : Collection) (rkey : String) : Thrown :=
  xrpcError 403
    s!"Record at://{env.did}/{collection.nsid}/{rkey} was not projected here or already deleted"

/-- The gate asks for an active alias of the record; what is deleted is the alias under
the given id, if there is one. -/
def deleteRecord (s : State) (cmd : Command) : Except Thrown Written := do
  let payload ← deletePayload env cmd
  let rkey := (textField payload "_rkey").getD ""
  if cmd.collection = .profile then
    throw (xrpcError 400 s!"Collection not supported: {cmd.collection.nsid}")
  match findAlias s env.did cmd.collection.nsid rkey with
  | none => throw (notProjectedHere env cmd.collection rkey)
  | some found =>
    let canonicalRefId := (filled (textField payload "_bridgeCanonicalRefId")).getD found
    let target := ensureAliasForLocator env s canonicalRefId cmd.collection rkey
    return ⟨articleOps env s canonicalRefId target (generatesTeaser cmd.collection payload) none none,
      none⟩

/-- What a command commits in a state. -/
def gatewayWrite (cmd : Command) (draws : Draws) (s : State) : Except Thrown Written :=
  match cmd.kind with
  | .createRecord => writeRecord env s cmd draws false
  | .updateRecord => writeRecord env s cmd draws true
  | .deleteRecord => deleteRecord env s cmd

/-- The result of a write is published if its alias is there afterwards. -/
def isPublished (written : Written) (after : State) : Bool :=
  match written.awaited with
  | some canonicalRefId => canonicalRefId ≠ "" && canonicalRefId ∈ after.aliases.order
  | none => true

/-- A transient failure around one gateway call, before or after its write took effect. -/
inductive Failure where
  | before (e : Thrown)
  | after (e : Thrown)

structure Call where
  draws : Draws
  failure : Option Failure

/-- The calls of one attempt, by the place of the command in the batch. -/
abbrev Attempt := Nat → Call

def gatewayCall (call : Call) (cmd : Command) (s : State) : State × Except Thrown Unit :=
  match call.failure with
  | some (.before e) => (s, .error e)
  | failure =>
    match gatewayWrite env cmd call.draws s with
    | .error e => (s, .error e)
    | .ok written =>
      let after := commit written.ops s
      match failure with
      | some (.after e) => (after, .error e)
      | _ => if isPublished written after then (after, .ok ()) else (after, .error writeTimeout)

def applyCommands : Attempt → List Command → State → State × Except Thrown Unit
  | _, [], s => (s, .ok ())
  | calls, cmd :: rest, s =>
    match gatewayCall env (calls 0) cmd s with
    | (after, .ok ()) => applyCommands (fun i => calls (i + 1)) rest after
    | (after, .error e) => (after, .error e)

/-- A batch that is refused is refused before its first command. -/
def prepareBatch (commands : List Command) : Except Thrown (List Command) :=
  if env.maxCommandsPerBatch < commands.length then
    .error (adapterError "AT_BRIDGE_BATCH_TOO_LARGE"
      s!"ATProto bridge batch exceeds maximum size {env.maxCommandsPerBatch}.")
  else commands.mapM (prepareCommand env)

def apply (calls : Attempt) (commands : List Command) (s : State) : State × Except Thrown Unit :=
  match prepareBatch env commands with
  | .error e => (s, .error e)
  | .ok prepared => applyCommands env calls prepared s

/-- `withRetry` around `apply`, from an attempt on; nothing where it needs more attempts than are
given. -/
def withRetry (maxAttempts : Nat) (commands : List Command) :
    Nat → List Attempt → State → Option (State × Except Thrown Unit)
  | _, [], _ => none
  | attempt, calls :: later, s =>
    match apply env calls commands s with
    | (after, .ok ()) => some (after, .ok ())
    | (after, .error e) =>
      if isTransient e && attempt < maxAttempts then
        withRetry maxAttempts commands (attempt + 1) later after
      else some (after, .error e)

end Commands

end MastopodFederation.Source.AtprotoWriteGatewayPort
