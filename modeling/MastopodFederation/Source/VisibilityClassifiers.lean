import MastopodFederation.Source.DeliveryPlanContract
import MastopodFederation.Source.ProtocolBridgeRuntime

/-!
# Classifiers of an activity's visibility

`isPublicActivity` and `determineVisibility` of delivery/inbound-worker.ts,
`isPublicAddressed` of utils/searchConsent.ts and `deriveAudience` of
activitypub/translators/shared.ts, beside `determineActivityVisibility` of the delivery
plan contract. An activity is a JSON object and has each key once.
-/
namespace MastopodFederation.Source.VisibilityClassifiers
open Lib.LuaTable DelayedQueue ProtocolBridgeRuntime DeliveryPlanContract

structure Activity where
  entries : Entries
  unique : (entries.map Prod.fst).Nodup

def Activity.field (activity : Activity) (key : String) : Option Json := activity.entries.lookup key

inductive Visibility where
  | everyone | unlisted | followers | direct | unknown
  deriving DecidableEq

def Visibility.isPublic : Visibility → Bool
  | .everyone | .unlisted => true
  | .followers | .direct | .unknown => false

def publicAudience : String := "https://www.w3.org/ns/activitystreams#Public"

/-- The addresses of a field; a value that JavaScript takes as false has none. -/
def addressesOf (field : Option Json) : List Json :=
  match field.filter jsTruthy with
  | none => []
  | some (.arr addresses) => addresses
  | some address => [address]

def isOneOf (texts : List String) : Json → Bool
  | .str text => texts.contains text
  | _ => false

def isPublicActivity (activity : Activity) : Bool :=
  let publicAddresses := [publicAudience, "as:Public", "Public"]
  (addressesOf (activity.field "to")).any (isOneOf publicAddresses) ||
    (addressesOf (activity.field "cc")).any (isOneOf publicAddresses)

def endsWith (suffix : String) : Json → Bool
  | .str text => suffix.toList.isSuffixOf text.toList
  | _ => false

def determineVisibility (activity : Activity) : Visibility :=
  let toList := addressesOf (activity.field "to")
  let ccList := addressesOf (activity.field "cc")
  if toList.any (isOneOf [publicAudience, "as:Public"]) then .everyone
  else if ccList.any (isOneOf [publicAudience, "as:Public"]) then .unlisted
  else if toList.any (endsWith "/followers") then .followers
  else .direct

def publicAliases : List String := [publicAudience, "as:Public", "Public"]

def normalizeIri : Option Json → Option String
  | some (.str value) =>
    let trimmed := trim value
    if trimmed = "" then none
    else some (if publicAliases.contains trimmed then publicAudience else trimmed)
  | _ => none

def nodeName (record : Entries) : Option Json :=
  orElse (orElse (record.lookup "id") (record.lookup "@id")) (record.lookup "href")

def extractUriFromNode (value : Json) : Option String :=
  match normalizeIri (some value), value with
  | some direct, _ => some direct
  | none, .obj record => normalizeIri (nodeName record)
  | none, _ => none

/-- `toArray` -/
def nodesOf : Option Json → List Json
  | some (.arr values) => values
  | none | some .null => []
  | some value => [value]

def isPublicAddressed (activity : Activity) : Bool :=
  ["to", "cc"].any fun field =>
    (nodesOf (activity.field field)).any fun node => extractUriFromNode node = some publicAudience

def toRecipientArray : Option Json → List String
  | some (.arr values) => values.filterMap fun
    | .str text => some text
    | _ => none
  | some (.str text) => [text]
  | _ => []

def deriveAudience (rawTo rawCc : Option Json) : Visibility :=
  let recipients := toRecipientArray rawTo ++ toRecipientArray rawCc
  if recipients.contains publicAudience then
    if (toRecipientArray rawTo).contains publicAudience then .everyone else .unlisted
  else if recipients.any fun recipient => Retry.includes recipient "/followers" then .followers
  else if !recipients.isEmpty then .direct
  else .unknown

end MastopodFederation.Source.VisibilityClassifiers
