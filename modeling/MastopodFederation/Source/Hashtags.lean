import MastopodFederation.Lib.Texts
import MastopodFederation.Source.SigningService

/-!
# Hashtags of a post

utils/hashtags.ts: normalizeHashtag, normalizeAtprotoTag and extractAtprotoTagsFromFacets;
serializers/FacetBuilder.ts; utils/emojis.ts: clampAtprotoText; the text, facets and tags of
serializers/PostRecordSerializer.ts. Texts are lists of code points.
-/
namespace MastopodFederation.Source.Hashtags
open Lib.Trimmed
open SigningService (whitespace)

abbrev Text := List Char

def Ascii (text : Text) : Prop := ∀ c ∈ text, c.toNat < 128

instance (text : Text) : Decidable (Ascii text) := List.decidableBAll _ text

/-- The runtime's Unicode tables, with what they are on ASCII. -/
structure Unicode where
  nfkc : Text → Text
  toLowerCase : Text → Text
  letter : Char → Bool
  mark : Char → Bool
  number : Char → Bool
  connector : Char → Bool
  segment : Text → List Text
  segment_flatten : ∀ text, (segment text).flatten = text
  segment_filled : ∀ text, ∀ piece ∈ segment text, piece ≠ []
  nfkc_ascii : ∀ text, Ascii text → nfkc text = text
  lower_ascii : ∀ text, Ascii text → toLowerCase text = text.map Char.toLower
  letter_ascii : ∀ c, c.toNat < 128 → letter c = c.isAlpha
  mark_ascii : ∀ c, c.toNat < 128 → mark c = false
  number_ascii : ∀ c, c.toNat < 128 → number c = c.isDigit
  connector_ascii : ∀ c, c.toNat < 128 → connector c = decide (c = '_')
  /-- Of the ASCII characters only a line feed joins the one before it. -/
  segment_ascii : ∀ text, Ascii text → '\n' ∉ text → segment text = text.map fun c => [c]

def trim (text : Text) : Text := trimmed (· ∈ whitespace) text

def isHash (c : Char) : Bool := c = '#' || c = '＃'

section
variable (u : Unicode)

def separators : List Char := ['\u00b7', '\u30fb', '\u200c']

def normalizeHashtagBody (value : Text) : Option Text :=
  let normalized := (u.nfkc value).rdropWhile (· ∈ separators)
  if normalized = [] then none
  else if normalized.any fun c =>
      !(u.letter c || u.mark c || u.number c || u.connector c || c ∈ separators) then none
  else if normalized.head?.any (fun c => !(u.letter c || u.number c)) ||
      normalized.getLast?.any fun c => !(u.letter c || u.mark c || u.number c || u.connector c) then
    none
  else if normalized.all fun c => !(u.letter c || u.mark c) then none
  else some (u.toLowerCase normalized)

def normalizeHashtag (value : Text) (allowMissingHash : Bool) : Option Text :=
  let trimmed := trim value
  if trimmed = [] then none
  else if trimmed.head?.any isHash then normalizeHashtagBody u (trimmed.drop 1)
  else if allowMissingHash then normalizeHashtagBody u trimmed
  else none

def trailingPunctuation : List Char :=
  ['.', ',', ';', ':', '!', '?', ')', ']', '}', '"', '\x27', '\u2019', '\u201d', '\u00bb']

def tagGraphemeMax : Nat := 64

/-- Less its first sign; the branch for two signs does the same. -/
def withoutSign (normalized : Text) : Text :=
  if ['#', '#'] <+: normalized ∨ ['＃', '＃'] <+: normalized then normalized.drop 1
  else if ['#'] <+: normalized ∨ ['＃'] <+: normalized then normalized.drop 1
  else normalized

/-- The text that normalizeAtprotoTag checks. -/
def candidate (value : Text) : Text :=
  (trim (withoutSign (u.nfkc (trim value)))).rdropWhile (· ∈ trailingPunctuation)

def normalizeAtprotoTag (value : Text) : Option Text :=
  if u.nfkc (trim value) = [] then none
  else
    let normalized := candidate u value
    if normalized = [] then none
    else if normalized.any (· ∈ whitespace) then none
    else if normalized.all Char.isDigit then none
    else if tagGraphemeMax < (u.segment normalized).length then none
    else some (u.toLowerCase normalized)

structure Facet where
  byteStart : Nat
  byteEnd : Nat
  tag : Text
  deriving DecidableEq

def byteLength (text : Text) : Nat := (text.map Char.utf8Size).sum

/-- The match of `[#＃]{1,2}[^\s#＃]{1,128}` at the start of a text. Where two signs have no
body behind them, neither has the first of them. -/
def matchAt (text : Text) : Option Text :=
  let signs := (text.take 2).takeWhile isHash
  let body := ((text.drop signs.length).take 128).takeWhile fun c =>
    !(isHash c || c ∈ whitespace)
  if signs = [] ∨ body = [] then none else some (signs ++ body)

/-- text.matchAll: each match with the text before it. `skip` characters are still of the
match before. -/
def matchAll (before : Text) (skip : Nat) : Text → List (Text × Text)
  | [] => []
  | c :: rest =>
    match skip, matchAt (c :: rest) with
    | skip + 1, _ => matchAll (before ++ [c]) skip rest
    | 0, none => matchAll (before ++ [c]) 0 rest
    | 0, some raw => (before, raw) :: matchAll (before ++ [c]) (raw.length - 1) rest

/-- DefaultFacetBuilder.build -/
def build (body : Text) : List Facet :=
  (matchAll [] 0 body).filterMap fun found =>
    (normalizeAtprotoTag u found.2).map fun tag =>
      ⟨byteLength found.1, byteLength found.1 + byteLength found.2, tag⟩

def extractAtprotoTagsFromFacets (facets : List Facet) : List Text :=
  (facets.filterMap fun facet => normalizeAtprotoTag u facet.tag).eraseDups

def maxGraphemes : Nat := 300
def maxUtf8Bytes : Nat := 3000

def clampLoop (result : Text) (graphemeCount : Nat) : List Text → Text
  | [] => result
  | grapheme :: rest =>
    if maxGraphemes ≤ graphemeCount then result
    else if maxUtf8Bytes < byteLength (result ++ grapheme) then result
    else clampLoop (result ++ grapheme) (graphemeCount + 1) rest

def clampAtprotoText (text : Text) : Text := clampLoop [] 0 (u.segment text)

structure PostRecord where
  text : Text
  facets : Option (List Facet)
  tags : Option (List Text)
  deriving DecidableEq

def serialize (bodyPlaintext : Text) : PostRecord :=
  let facets := build u bodyPlaintext
  let tags := (extractAtprotoTagsFromFacets u facets).take 8
  { text := clampAtprotoText u bodyPlaintext
    facets := if facets = [] then none else some facets
    tags := if facets = [] ∨ tags = [] then none else some tags }

end
end MastopodFederation.Source.Hashtags
