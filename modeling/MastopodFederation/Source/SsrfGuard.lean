import Mathlib
import MastopodFederation.Lib.Calls

/-!
# Remote fetches of media

security/ssrfGuard.ts and the untrusted path of workers/fetchWorker.ts up to the response:
`assertSafeRemoteUrl`, `fetchWithValidatedRedirects` and the retries around it. URLs are
parsed by a parameter; their hosts are names or addresses, as the URL standard has them. A
lookup answers with addresses in the text form of the resolver, which `assertPublicIp`
inspects; a fetch tells which addresses the client opened connections to.
-/
namespace MastopodFederation.Source.SsrfGuard
open Lib.Calls

inductive Thrown where
  /-- `MediaPipelineError` -/
  | pipeline (code message : String) (retryable : Bool) (statusCode : Option Nat)
  /-- any other error, with an empty text for a name or a code that it lacks -/
  | native (name code message : String)
  deriving DecidableEq

/-- `new Error(message)` -/
def Thrown.new (message : String) : Thrown := .native "Error" "" message

def transientCodes : List String :=
  ["ECONNRESET", "ECONNREFUSED", "EPIPE", "EAI_AGAIN", "ETIMEDOUT", "ECONNABORTED",
    "UND_ERR_CONNECT_TIMEOUT", "UND_ERR_HEADERS_TIMEOUT", "UND_ERR_BODY_TIMEOUT",
    "UND_ERR_SOCKET"]

/-- `message.toLowerCase().includes(part)` -/
def mentions (message part : String) : Bool :=
  part.toList <:+: message.toList.map Char.toLower

def isLikelyTransientError : Thrown → Bool
  | .pipeline _ _ retryable _ => retryable
  | .native name code message =>
    code.toUpper ∈ transientCodes || name = "AbortError" || name = "TimeoutError" ||
      mentions message "timed out" || mentions message "timeout"

instance octetCount : NeZero 256 := ⟨by decide⟩

structure Ipv4 where
  a : Fin 256
  b : Fin 256
  c : Fin 256
  d : Fin 256
  deriving DecidableEq

/-- Eight groups of 16 bits. -/
structure Ipv6 where
  groups : List (Fin 65536)
  eight : groups.length = 8
  deriving DecidableEq

inductive Address where
  | v4 (ip : Ipv4)
  | v6 (ip : Ipv6)
  deriving DecidableEq

def decimal (n : Nat) : List Char := Nat.toDigits 10 n

def hex (n : Nat) : List Char := Nat.toDigits 16 n

/-- `a.b.c.d` -/
def ipv4Text (ip : Ipv4) : List Char :=
  decimal ip.a ++ '.' :: decimal ip.b ++ '.' :: decimal ip.c ++ '.' :: decimal ip.d

/-- The longer of two runs of zeros, the first one where they are equally long. A run is its
first index and its length, and an empty one stands for none. -/
def longerRun (best current : Nat × Nat) : Nat × Nat := if best.2 < current.2 then current else best

/-- The scan for the longest run of zeros, with the best run so far and the current one. -/
def scanRuns : Nat → List Nat → Nat × Nat → Nat × Nat → Nat × Nat
  | _, [], best, current => longerRun best current
  | i, word :: rest, best, current =>
    if word = 0 then
      scanRuns (i + 1) rest best (if current.2 = 0 then (i, 1) else (current.1, current.2 + 1))
    else scanRuns (i + 1) rest (longerRun best current) (0, 0)

/-- The run that is written as `::`; a single zero is not. -/
def compressedRun (words : List Nat) : Nat × Nat :=
  let best := scanRuns 0 words (0, 0) (0, 0)
  if best.2 < 2 then (0, 0) else best

/-- The last two words as an IPv4 address. -/
def embeddedIpv4 (high low : Nat) : List Char :=
  decimal (high / 256) ++ '.' :: decimal (high % 256) ++
    '.' :: decimal (low / 256) ++ '.' :: decimal (low % 256)

/-- The groups from the one with this index on. -/
def groupTexts (run : Nat × Nat) (mapped : Bool) : Nat → List Nat → List Char
  | i, [] => if 0 < run.2 && run.1 + run.2 == i then [':'] else []
  | i, word :: rest =>
    if run.1 ≤ i && i < run.1 + run.2 then
      (if i = run.1 then [':'] else []) ++ groupTexts run mapped (i + 1) rest
    else
      (if i = 0 then [] else [':']) ++
        match i, rest with
        | 6, [low] =>
          -- an initial run before the last two words, or before a group of ones, embeds IPv4
          if run.1 = 0 && (run.2 = 6 || run.2 = 5 && mapped) then embeddedIpv4 word low
          else hex word ++ groupTexts run mapped (i + 1) rest
        | _, _ => hex word ++ groupTexts run mapped (i + 1) rest

/-- The text of an IPv6 address as `dns.lookup` gives it. -/
def ipv6Text (ip : Ipv6) : List Char :=
  let words := ip.groups.map (·.val)
  groupTexts (compressedRun words) (words[5]? == some 65535) 0 words

def addressText : Address → List Char
  | .v4 ip => ipv4Text ip
  | .v6 ip => ipv6Text ip

inductive Host where
  | name (text : String)
  | ipv4 (ip : Ipv4)
  | ipv6 (ip : Ipv6)
  deriving DecidableEq

structure Url where
  protocol : String
  username : String
  password : String
  host : Host
  href : String
  deriving DecidableEq

/-- `url.hostname`; names are lower case and IPv6 addresses in brackets. -/
def hostname (url : Url) : String :=
  match url.host with
  | .name text => text
  | .ipv4 ip => String.ofList (ipv4Text ip)
  | .ipv6 ip => String.ofList ('[' :: ipv6Text ip ++ [']'])

def blockedHostnames : List String := ["localhost", "localhost.localdomain", "metadata.google.internal"]

def blockedHostnameSuffixes : List String := [".internal", ".local", ".localhost", ".home.arpa"]

def privateIpv4Ranges : List (Ipv4 × Ipv4) :=
  [(⟨0, 0, 0, 0⟩, ⟨0, 255, 255, 255⟩),
    (⟨10, 0, 0, 0⟩, ⟨10, 255, 255, 255⟩),
    (⟨127, 0, 0, 0⟩, ⟨127, 255, 255, 255⟩),
    (⟨100, 64, 0, 0⟩, ⟨100, 127, 255, 255⟩),
    (⟨169, 254, 0, 0⟩, ⟨169, 254, 255, 255⟩),
    (⟨172, 16, 0, 0⟩, ⟨172, 31, 255, 255⟩),
    (⟨192, 168, 0, 0⟩, ⟨192, 168, 255, 255⟩),
    (⟨198, 18, 0, 0⟩, ⟨198, 19, 255, 255⟩),
    (⟨224, 0, 0, 0⟩, ⟨239, 255, 255, 255⟩),
    (⟨240, 0, 0, 0⟩, ⟨255, 255, 255, 255⟩)]

/-- `(acc << 8) + octet` in 32 bits, from the first octet to the last. -/
def ipv4ToInt (ip : Ipv4) : Nat :=
  ([ip.a, ip.b, ip.c, ip.d].foldl
    (fun (acc : BitVec 32) (octet : Fin 256) => (acc <<< 8) + BitVec.ofNat 32 octet.val) 0#32).toNat

/-- The texts that the guard compares an IPv6 address with. -/
def blockedIpv6Texts : List String := ["::", "::1"]

def blockedIpv6Starts : List String :=
  ["fc", "fd", "fe80:", "ff", "2001:db8:", "2001:10:", "2002:", "64:ff9b:", "100:", "::ffff:"]

def startsWith (text : List Char) (start : String) : Bool := start.toList.isPrefixOf text

def assertPublicIp : Address → Except Thrown Unit
  | .v4 ip =>
    if privateIpv4Ranges.any fun range =>
        ipv4ToInt range.1 ≤ ipv4ToInt ip && ipv4ToInt ip ≤ ipv4ToInt range.2 then
      .error (.new s!"Blocked private IPv4 address: {String.ofList (ipv4Text ip)}")
    else .ok ()
  | .v6 ip =>
    if (blockedIpv6Texts.any fun text => text.toList = ipv6Text ip) ||
        blockedIpv6Starts.any (startsWith (ipv6Text ip)) then
      .error (.new s!"Blocked private IPv6 address: {String.ofList (ipv6Text ip)}")
    else .ok ()

structure Response where
  status : Nat
  location : Option String

/-- A request of the client: the addresses it opened connections to, and how it ended. -/
structure Fetched where
  opened : List Address
  response : Except Thrown Response

inductive Call where
  /-- `dns.lookup` of a host name for all addresses -/
  | lookup (hostname : String)
  /-- the client resolves the host itself and connects -/
  | fetch (url : Url)

abbrev Reply : Call → Type
  | .lookup _ => Except Thrown (List Address)
  | .fetch _ => Fetched

abbrev Program := Prog Call Reply Thrown

structure Environment where
  /-- `new URL(text)` -/
  parseUrl : String → Option Url
  /-- `new URL(location, base)` -/
  resolveUrl : String → Url → Option Url

def lookup (hostname : String) : Program (List Address) := .call (.lookup hostname) .done

def fetch (url : Url) : Program Response :=
  .call (.fetch url) fun (fetched : Fetched) => .done fetched.response

def fetchRetries : Nat := 3

def maxRedirects : Nat := 4

def throwing {α : Type} (message : String) : Program α := .done (.error (.new message))

def assertAllPublic : List Address → Program Unit
  | [] => pure ()
  | answer :: rest => do
    .done (assertPublicIp answer)
    assertAllPublic rest

/-- The host of a URL that passed the checks of its text. -/
def assertPublicHost (url : Url) : Program Url :=
  match url.host with
  | .ipv4 ip => do
    .done (assertPublicIp (.v4 ip))
    pure url
  | _ => do
    let answers ← lookup (hostname url)
    if answers.isEmpty then throwing "Unable to resolve remote host"
    else do
      assertAllPublic answers
      pure url

def blockedHostname (hostname : String) : Bool :=
  hostname ∈ blockedHostnames ||
    blockedHostnameSuffixes.any fun suffix => suffix.toList.isSuffixOf hostname.toList

section Fetch
variable (env : Environment)

def assertSafeRemoteUrl (rawUrl : String) : Program Url :=
  match env.parseUrl rawUrl with
  | none => throwing "Invalid URL"
  | some url =>
    if url.protocol ≠ "http:" ∧ url.protocol ≠ "https:" then
      throwing "Only http(s) URLs are permitted"
    else if url.username ≠ "" ∨ url.password ≠ "" then
      throwing "Userinfo is not permitted in media URLs"
    else if hostname url = "" then throwing "Remote host is required"
    else if blockedHostname (hostname url) then
      throwing s!"Blocked internal hostname: {hostname url}"
    else assertPublicHost url

def isRedirectStatus (status : Nat) : Bool :=
  status = 301 || status = 302 || status = 303 || status = 307 || status = 308

/-- The URL a redirect leads to. -/
def nextUrl (currentUrl : Url) (location : String) : Program Url :=
  match env.resolveUrl location currentUrl with
  | none => throwing "Invalid URL"
  | some next =>
    if currentUrl.protocol = "https:" ∧ next.protocol ≠ "https:" then
      throwing "Refusing insecure redirect downgrade from https to non-https"
    else assertSafeRemoteUrl env next.href

/-- The location of a redirect. -/
def locationOf (response : Response) : Program String :=
  match response.location with
  | none | some "" => throwing "Redirect response missing location header"
  | some location => pure location

/-- The loop over redirects, with how many more are followed. -/
def fetchRedirects : Nat → Url → Program Response
  | 0, currentUrl => do
    let response ← fetch currentUrl
    if isRedirectStatus response.status then do
      let _ ← locationOf response
      throwing "Too many redirects while fetching media"
    else pure response
  | redirects + 1, currentUrl => do
    let response ← fetch currentUrl
    if isRedirectStatus response.status then do
      let location ← locationOf response
      let next ← nextUrl env currentUrl location
      fetchRedirects redirects next
    else pure response

def fetchWithValidatedRedirects (initialUrl : Url) : Program Response :=
  fetchRedirects env maxRedirects initialUrl

/-- A chain whose response is not a transient failure. -/
def fetchOnce (safeUrl : Url) : Program Response := do
  let response ← fetchWithValidatedRedirects env safeUrl
  if response.status ≥ 500 ∨ response.status = 429 then
    .done (.error (.pipeline "FETCH_TRANSIENT_FAILURE"
      s!"Transient fetch failure: {response.status}" true (some response.status)))
  else pure response

/-- `retryAsync` with this many retries left and `isLikelyTransientError` as the test. -/
def retryAsync {α : Type} (operation : Program α) : Nat → Program α
  | 0 => operation
  | retries + 1 => operation.rescue fun error =>
    if isLikelyTransientError error then retryAsync operation retries else .done (.error error)

/-- The untrusted path, up to the response. -/
def fetchUntrusted (sourceUrl : String) : Program Response := do
  let safeUrl ← assertSafeRemoteUrl env sourceUrl
  retryAsync (fetchOnce env safeUrl) fetchRetries

end Fetch

end MastopodFederation.Source.SsrfGuard
