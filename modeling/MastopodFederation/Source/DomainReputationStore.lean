import MastopodFederation.Lib.Texts
import MastopodFederation.Source.SigningService

/-!
# Blocked domains

delivery/DomainReputationStore.ts: sanitizeDomain and both stores, with Redis commands that
succeed. Texts are lists of characters; a call is `none` where the source throws. listDomains
is left out.
-/
namespace MastopodFederation.Source.DomainReputationStore
open Lib.Trimmed
open SigningService (whitespace)

abbrev Text := List Char

def maxDomainLen : Nat := 253

/-- Lower case where it can lead to a label: the Kelvin sign becomes a k, and any other
character outside ASCII is refused below in either case. -/
def toLowerCase (c : Char) : Char := if c = '\u212A' then 'k' else c.toLower

def stripPort (d : Text) : Text :=
  let after := d.rtakeWhile (· ≠ ':')
  let host := d.rdropWhile (· ≠ ':')
  if 1 < host.length ∧ 0 < after.length ∧ after.length ≤ 5 ∧ after.all Char.isDigit then
    host.dropLast
  else d

def alphanumeric (c : Char) : Bool := c.isLower || c.isDigit

def isLabel (label : Text) : Bool :=
  label.length ≤ 63 && label.all (fun c => alphanumeric c || c = '-') &&
    label.head?.any alphanumeric && label.getLast?.any alphanumeric

def isTopLabel (label : Text) : Bool :=
  2 ≤ label.length && label.length ≤ 63 && label.all Char.isLower

/-- LABEL_RE -/
def labelsMatch (parts : List Text) : Bool :=
  2 ≤ parts.length && parts.dropLast.all isLabel && parts.getLast?.any isTopLabel

def isIpv4 (parts : List Text) : Bool :=
  parts.length = 4 && parts.all fun part => part ≠ [] && part.all Char.isDigit

/-- The checks of a hostname without its port. -/
def isHostname (d : Text) : Bool :=
  d.length ≤ maxDomainLen && !(isIpv4 (d.splitOn '.') || d.head? = some '[') &&
    labelsMatch (d.splitOn '.')

def sanitizeDomain (raw : Text) : Option Text :=
  let d := trimmed (· ∈ whitespace) (raw.map toLowerCase)
  if d ≠ [] ∧ isHostname (stripPort d) then some (stripPort d) else none

/-- The two sets of a store. -/
structure Domains where
  exact : List Text := []
  sub : List Text := []

/-- The domain and its parents of at least two labels. -/
def subdomainCandidates (d : Text) : List Text :=
  let parts := d.splitOn '.'
  (List.range (parts.length - 1)).map fun i => ['.'].intercalate (parts.drop i)

def InMemory.isDomainBlocked (store : Domains) (domain : Text) : Bool :=
  match sanitizeDomain domain with
  | none => false
  | some d => d ∈ store.exact || (subdomainCandidates d).any (· ∈ store.sub)

def sismember (members : List Text) (member : Text) : Nat := if member ∈ members then 1 else 0

def Redis.isDomainBlocked (store : Domains) (domain : Text) : Bool :=
  match sanitizeDomain domain with
  | none => false
  | some d =>
    let exactResult := sismember store.exact d
    let subMembership := (subdomainCandidates d).map (sismember store.sub)
    exactResult = 1 || subMembership.any (· = 1)

/-- The change of one of the two sets. -/
def Domains.change (store : Domains) (subdomainMatch : Bool) (f : List Text → List Text) : Domains :=
  if subdomainMatch then { store with sub := f store.sub } else { store with exact := f store.exact }

/-- In both stores; `none` throws. -/
def addDomain (store : Domains) (domain : Text) (subdomainMatch : Bool) : Option Domains :=
  (sanitizeDomain domain).map fun d => store.change subdomainMatch (List.insert d)

def removeDomain (store : Domains) (domain : Text) (subdomainMatch : Bool) : Option Domains :=
  (sanitizeDomain domain).map fun d => store.change subdomainMatch (List.filter (· ≠ d))

end MastopodFederation.Source.DomainReputationStore
