import MastopodFederation.Source.SigningService
import MastopodFederation.Lib.Texts

/-!
# Recipients of an activity

activitypods-integration/activitypub-recipient-resolution.js: who an activity is addressed to, the
walk over a followers collection, the delivery targets and their groups. URLs are parsed by a
parameter with what the URL standard says of it. A fetch gives the document, or nothing where the
request, its status or its JSON fails; so does a lookup of an actor that throws. Sets are lists in
the order of insertion.
-/
namespace MastopodFederation.Source.RecipientResolution
open Lib.LuaTable (Json)
open Lib.Trimmed (trimmed)
open SigningService (property whitespace)

structure Url where
  protocol : String
  hostname : String
  /-- `toString()` -/
  href : String
  deriving DecidableEq

/-- The URL parser: what is written can be read again, and a host has no vertical bar. -/
structure Parser where
  parse : String → Option Url
  reparse : ∀ {text url}, parse text = some url → parse url.href = some url
  plain : ∀ {text url}, parse text = some url → '|' ∉ url.hostname.toList
  named : ∀ {text url}, parse text = some url → url.protocol = "https:" → url.hostname ≠ ""

structure Environment where
  urls : Parser
  /-- the document at a URL -/
  fetchDocument : String → Option Json
  /-- `activitypub.actor.isLocal` -/
  isLocal : String → Option Bool
  /-- `activitypub.actor.get` -/
  actorGet : String → Option Json
  /-- `left.localeCompare(right) <= 0` -/
  localeLe : String → String → Bool

def publicAudienceUris : List String :=
  ["https://www.w3.org/ns/activitystreams#Public", "as:Public", "Public"]

def localhostHostnames : List String := ["localhost", "127.0.0.1", "::1"]

def trim (text : String) : String := String.ofList (trimmed (· ∈ whitespace) text.toList)

def isPublicAudience (text : String) : Bool := trim text ∈ publicAudienceUris

/-- `set.add(value)` -/
def add (value : String) (set : List String) : List String :=
  if value ∈ set then set else set ++ [value]

/-- `Array.isArray(value) ? value : [value]`; an absent value adds nothing to what follows. -/
def valuesOf (value : Option Json) : List Json :=
  match value with
  | none => []
  | some (.arr items) => items
  | some single => [single]

section Resolution
variable (env : Environment)

def normalizeUrl (value : Option Json) : Option String :=
  match value with
  | some (.str text) =>
    if trim text = "" then none
    else match env.urls.parse (trim text) with
      | none => none
      | some url =>
        if url.protocol = "https:" then some url.href
        else if url.protocol = "http:" ∧ url.hostname ∈ localhostHostnames then some url.href
        else none
  | _ => none

/-- `actorUri.replace(/\\/$/, "")` -/
def withoutSlash (actorUri : String) : String :=
  if actorUri.toList.getLast? = some '/' then String.ofList actorUri.toList.dropLast else actorUri

def buildFollowersCollectionUris (actorUri : String) (actor : Option Json) : List String :=
  let actorFollowers := normalizeUrl env (property actor "followers")
  let derivedFollowers := normalizeUrl env (some (.str (withoutSlash actorUri ++ "/followers")))
  derivedFollowers.elim (actorFollowers.elim [] (add · [])) fun derived =>
    add derived (actorFollowers.elim [] (add · []))

/-- The recipient of one value of an addressing field. -/
def recipientOf (followersUris : List String) (value : Json) : Option String :=
  match value with
  | .str text =>
    if trim text = "" ∨ isPublicAudience (trim text) then none
    else if trim text ∈ followersUris then some (trim text)
    else normalizeUrl env (some (.str (trim text)))
  | _ => none

def addressingFields : List String := ["to", "cc", "bto", "bcc"]

/-- The values of the addressing fields, in the order of the fields. -/
def addressed (activity : Json) : List Json :=
  addressingFields.flatMap fun field => valuesOf (property activity field)

def mentionOf (tag : Json) : Option String :=
  match tag with
  | .obj entries =>
    match entries.lookup "type" with
    | some (.str "Mention") =>
      match normalizeUrl env (entries.lookup "href") with
      | some href => if isPublicAudience href then none else some href
      | none => none
    | _ => none
  | _ => none

/-- The tags of the activity and of its object; what is no object has none. -/
def tagsOf (activity : Json) : List Json :=
  valuesOf (property activity "tag") ++ valuesOf (property (property activity "object") "tag")

def extractMentionUris (activity : Json) : List String :=
  ((tagsOf activity).filterMap (mentionOf env)).foldl (fun set href => add href set) []

def extractRecipientUris (activity : Json) (actorUri : String) (actor : Option Json) :
    List String :=
  let followersUris := buildFollowersCollectionUris env actorUri actor
  let addressees := (addressed activity).filterMap (recipientOf env followersUris)
  let mentioned := (extractMentionUris env activity).filter (· ∉ followersUris)
  (addressees ++ mentioned).foldl (fun set uri => add uri set) []

def directItems (entries : List (String × Json)) : List Json :=
  match entries.lookup "orderedItems", entries.lookup "items" with
  | some (.arr items), _ => items
  | _, some (.arr items) => items
  | _, _ => []

mutual
/-- The items of a document, or those of the page embedded in it. -/
def extractCollectionItems : Json → List Json
  | .obj entries =>
    match directItems entries with
    | [] => firstItems entries
    | items => items
  | _ => []

/-- The items of `payload.first`. -/
def firstItems : List (String × Json) → List Json
  | [] => []
  | (key, value) :: rest => if key = "first" then extractCollectionItems value else firstItems rest
end

def pageUrl (payload : Json) (key : String) : Option String :=
  match property payload key with
  | some (.str link) => normalizeUrl env (some (.str link))
  | _ => none

def getNextCollectionPageUrl (payload : Json) : Option String := pageUrl env payload "next"

def getFirstCollectionPageUrl (payload : Json) : Option String := pageUrl env payload "first"

/-- The text that names the actor of an item. -/
def getActorUriFromCollectionItem (item : Json) : Option Json :=
  match item with
  | .str text => some (.str text)
  | .obj entries =>
    match entries.lookup "id", entries.lookup "@id" with
    | some (.str id), _ => some (.str id)
    | _, some (.str id) => some (.str id)
    | _, _ => none
  | _ => none

def maxPages : Nat := 10

def maxFollowerActors : Nat := 5000

/-- The actor of an item, unless it is the owner of the collection. -/
def followerOf (actorUri : String) (item : Json) : Option String :=
  match normalizeUrl env (getActorUriFromCollectionItem item) with
  | some uri => if isPublicAudience uri ∨ uri = actorUri then none else some uri
  | none => none

/-- The loop over the items of a document, which ends when there are enough actors. -/
def addItems (actorUri : String) : List Json → List String → List String
  | [], actorUris => actorUris
  | item :: rest, actorUris =>
    let added := (followerOf env actorUri item).elim actorUris (add · actorUris)
    if maxFollowerActors ≤ added.length then added else addItems actorUri rest added

/-- The links of a document. -/
def linksOf (payload : Json) : List String :=
  (getNextCollectionPageUrl env payload).toList ++ (getFirstCollectionPageUrl env payload).toList

/-- The loop over the queue, with how many more documents may be fetched. URLs that were fetched
are skipped. -/
def walk (actorUri : String) : Nat → List String → List String → List String → List String
  | 0, _, _, actorUris => actorUris
  | pages + 1, queue, seen, actorUris =>
    if maxFollowerActors ≤ actorUris.length then actorUris
    else match queue.dropWhile (· ∈ seen) with
      | [] => actorUris
      | url :: rest =>
        match env.fetchDocument url with
        | none => walk actorUri pages rest (url :: seen) actorUris
        | some payload =>
          walk actorUri pages (rest ++ (linksOf env payload).filter (· ∉ url :: seen)) (url :: seen)
            (addItems env actorUri (extractCollectionItems payload) actorUris)

def fetchFollowersActorUris (actorUri : String) (actor : Option Json) : List String :=
  walk env actorUri maxPages (buildFollowersCollectionUris env actorUri actor) [] []

structure Target where
  recipientUri : String
  targetDomain : String
  inboxUrl : String
  sharedInboxUrl : Option String
  deriving DecidableEq

/-- `target.sharedInboxUrl || target.inboxUrl` -/
def Target.deliveryUrl (target : Target) : String := target.sharedInboxUrl.getD target.inboxUrl

/-- The target of a recipient, if its actor is remote and has an inbox. -/
def targetOf (recipientUri : String) : Option Target :=
  match env.isLocal recipientUri with
  | some false =>
    match env.actorGet recipientUri with
    | none => none
    | some actorDoc =>
      match normalizeUrl env (property actorDoc "inbox") with
      | none => none
      | some inboxUrl =>
        let sharedInboxUrl := normalizeUrl env (property (property actorDoc "endpoints") "sharedInbox")
        match env.urls.parse (sharedInboxUrl.getD inboxUrl) with
        | none => none
        | some url => some ⟨recipientUri, url.hostname.toLower, inboxUrl, sharedInboxUrl⟩
  | _ => none

def Target.key (target : Target) : String := target.targetDomain ++ "|" ++ target.deliveryUrl

/-- The first target of each key, with the keys seen so far. -/
def firstOfKey : List String → List Target → List Target
  | _, [] => []
  | seen, target :: rest =>
    if target.key ∈ seen then firstOfKey seen rest
    else target :: firstOfKey (target.key :: seen) rest

def deduplicateTargets (targets : List Target) : List Target :=
  (firstOfKey [] targets).mergeSort fun left right => env.localeLe left.key right.key

/-- The actors behind the explicit recipients, a followers collection as its members. -/
def actorRecipients (activity : Json) (actorUri : String) (actor : Option Json) : List String :=
  let followersUris := buildFollowersCollectionUris env actorUri actor
  let actors := (extractRecipientUris env activity actorUri actor).flatMap fun recipientUri =>
    if recipientUri ∈ followersUris then fetchFollowersActorUris env actorUri actor
    else [recipientUri]
  actors.foldl (fun set uri => add uri set) []

def resolveDeliveryTargets (activity : Json) (actorUri : String) (actor : Option Json) :
    List Target :=
  deduplicateTargets env ((actorRecipients env activity actorUri actor).filterMap (targetOf env))

structure Group where
  actor : String
  targetDomain : String
  recipients : List String
  sharedInbox : Option String
  deriving DecidableEq

/-- A target added to its group. -/
def Group.include (group : Group) (target : Target) : Group :=
  { group with
    recipients := add target.deliveryUrl group.recipients
    sharedInbox := group.sharedInbox.or target.sharedInboxUrl }

/-- `grouped`, with a new group at the end for a new domain. -/
def addToGroup (actorUri : String) (target : Target) : List Group → List Group
  | [] => [Group.include ⟨actorUri, target.targetDomain.toLower, [], none⟩ target]
  | group :: rest =>
    if group.targetDomain = target.targetDomain.toLower then group.include target :: rest
    else group :: addToGroup actorUri target rest

/-- A group as it is returned: its delivery URLs in order, and a shared inbox that is among them. -/
def Group.finish (group : Group) : Group :=
  { group with
    recipients := group.recipients.mergeSort fun left right => decide (left ≤ right)
    sharedInbox := group.sharedInbox.filter (· ∈ group.recipients) }

def groupTargetsByDomain (actorUri : String) (targets : List Target) : List Group :=
  let grouped := targets.foldl
    (fun groups target =>
      if target.targetDomain = "" then groups else addToGroup actorUri target groups) []
  (grouped.map Group.finish).mergeSort fun left right =>
    env.localeLe left.targetDomain right.targetDomain

end Resolution

end MastopodFederation.Source.RecipientResolution
