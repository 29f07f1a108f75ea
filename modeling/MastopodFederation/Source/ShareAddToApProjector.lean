import MastopodFederation.Source.ProfileUpdateToApProjector

/-!
# The projector of reposts

projectors/activitypub/ShareAddToApProjector.ts with what it uses of social-shared.ts.
The digest in the id of an activity, the first 24 hexadecimal digits of SHA-256, and
`encodeURIComponent` are parameters.
-/
namespace MastopodFederation.Source.ShareAddToApProjector
open CanonicalIntent AtEnvelope AtToApProjectionWorker ProfileUpdateToApProjector

def isHttp (text : String) : Bool := hasPrefix "http://" text || hasPrefix "https://" text

def toApIri (encodeURIComponent : String → String) (value : String) : String :=
  if isHttp value || hasPrefix "urn:" value || hasPrefix "did:" value then value
  else s!"urn:canonical:{encodeURIComponent value}"

section
variable (digest encodeURIComponent : String → String) (ctx : Context)

/-- `buildSocialActivityId` for `Announce` -/
def buildAnnounceId (actorId targetKey : String) : String :=
  let digits := digest s!"{actorId}:Announce:{targetKey}"
  if isHttp actorId then s!"{withoutTrailingSlashes actorId}/__bridge/announce/{digits}"
  else s!"urn:bridge:announce:{digits}"

/-- The address of an object as others know it. -/
def objectAddress (object : ObjectRef) : String :=
  ((object.activityPubObjectId.or object.canonicalUrl).or object.atUri).getD
    object.canonicalObjectId

def projectShare (intent : Intent) (object : ObjectRef) : Projection :=
  let actor := ctx.resolveActorRef intent.sourceAccountRef
  match actor.activityPubActorUri.filter (· ≠ "") with
  | none => .error "AP_SHARE_ACTOR_URI_MISSING"
      s!"Cannot project {canonicalActorIdentityKey actor} to ActivityPub without an actor URI."
  | some actorId =>
    let target := objectAddress (ctx.resolveObjectRef object)
    .success
      [{ activity := .obj
          [("@context", .str "https://www.w3.org/ns/activitystreams"),
            ("id", .str (buildAnnounceId digest actorId (canonicalObjectIdentityKey object))),
            ("type", .str "Announce"),
            ("actor", .str actorId),
            ("object", .str (toApIri encodeURIComponent target)),
            ("published", .str intent.createdAt)]
         targetTopic := apTargetTopic intent
         canonicalIntentId := intent.canonicalIntentId
         sourceProtocol := intent.sourceProtocol
         provenance := intent.provenance }]
      (maxLossiness intent.warnings) intent.warnings

def shareAddToApProjector : Projector where
  supports intent := intent.body.kind = .shareAdd
  project intent :=
    match intent.body with
    | .shareAdd object => projectShare digest encodeURIComponent ctx intent object
    | _ => .unsupported "not a share"

end

end MastopodFederation.Source.ShareAddToApProjector
