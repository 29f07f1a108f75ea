import MastopodFederation.Source.SigningService
import MastopodFederation.Lib.Logged
import MastopodFederation.Lib.TextLines

/-!
# What a signature covers

A signed result is faithful when the lines of the signed text are the headers of the profile
with the values of the request, the date is recent and the digest is that of the body. The
service checks that for the host and for the digest; it holds exactly when the path, the query,
the date and a signed content type are one line each and the date can be parsed.
-/
namespace MastopodFederation.Guarantees.SignedReports
open Lib.LuaTable (Json)
open Lib.Logged (except_bind_ok)
open Source.SigningService

abbrev OneLine (text : String) : Prop := '\n' ∉ text.toList

theorem splitOn_joined_iff {lines : List String} (some_line : lines ≠ []) :
    ("\n".intercalate lines).toList.splitOn '\n' = lines.map String.toList ↔
      ∀ line ∈ lines, OneLine line := by
  rw [String.toList_intercalate]
  change (['\n'].intercalate (lines.map String.toList)).splitOn '\n' = _ ↔ _
  constructor
  · intro same line listed
    have inside : line.toList ∈ (['\n'].intercalate (lines.map String.toList)).splitOn '\n' := by
      rw [same]
      exact List.mem_map_of_mem listed
    exact fun broken => (Lib.TextLines.mem_piece inside '\n' broken).2 rfl
  · intro single
    apply List.splitOn_intercalate
    · intro line listed
      obtain ⟨text, among, rfl⟩ := List.mem_map.mp listed
      exact single text among
    · simpa using some_line

def shown (computed : Except SigningError String) : String :=
  match computed with
  | .ok text => text
  | .error _ => ""

section Spec
variable (env : Environment) (moment : Moment) (r : Json)

/-- The values of the headers, from what the result reports and the request's query and content
type. -/
def reported (s : Signed) : Covered where
  requestTarget := buildRequestTarget s.method s.path (shown (queryText env r))
  host := s.host
  date := shown (text env s.date)
  digest := s.digest
  contentType := shown (contentTypeText env s.signedHeaders r)

def lineOf (covered : Covered) (header : String) : String :=
  header ++ ": " ++ (headerValue covered header).getD ""

structure Reports (s : Signed) : Prop where
  method : ∃ given, text env (orElse (property r "method") (.str "")) = .ok given ∧
    s.method = env.toUpperCase given
  host : property (property r "target") "host" = some (.str s.host)
  path : property (property r "target") "path" = some (.str s.path)
  date : s.date = dateOf env moment r

structure Faithful (s : Signed) : Prop where
  reports : Reports env moment r s
  lines : s.signingString.toList.splitOn '\n' =
    (s.signedHeaders.map (lineOf (reported env r s))).map String.toList
  date : ∃ t, env.dateParse (reported env r s).date = some t ∧
    (moment.checked - t).natAbs ≤ env.settings.limits.maxClockSkewSeconds * 1000
  digest : ∀ value, s.digest = some value → ∃ body, parseBodyBytes r = some body ∧
    value = "SHA-256=" ++ env.sha256Base64 body ∧
    s.bodySha256Base64 = some (env.sha256Base64 body)
  covered : "digest" ∈ s.signedHeaders → s.digest.isSome

/-- The texts of a request that are signed without a check are one line each, and its date, which
may be made up, can be parsed. -/
structure Clean : Prop where
  path : ∀ path, property (property r "target") "path" = some (.str path) → OneLine path
  query : ∀ query, queryText env r = .ok query → OneLine query
  date : ∀ date, text env (dateOf env moment r) = .ok date →
    OneLine date ∧ (env.dateParse date).isSome
  contentType : ∀ name profile signedHeaders contentType, text env (property r "profile") = .ok name →
    profileNamed name = some profile → profile.signedHeaders = some signedHeaders →
    contentTypeText env signedHeaders r = .ok contentType → OneLine contentType

structure Made (s : Signed) : Prop where
  reports : Reports env moment r s
  profile : ∃ name profile, text env (property r "profile") = .ok name ∧
    profileNamed name = some profile ∧ profile.signedHeaders = some s.signedHeaders ∧
    bodyHash env profile r = .ok s.bodySha256Base64
  host : assertHost (property (property r "target") "host") = some s.host
  method : s.method ∈ methods
  date : text env (dateOf env moment r) = .ok (reported env r s).date
  skew : validateDateSkew env moment (reported env r s).date = true
  query : queryText env r = .ok (shown (queryText env r))
  contentType : contentTypeText env s.signedHeaders r = .ok (reported env r s).contentType
  digest : s.digest = s.bodySha256Base64.map fun hash => "SHA-256=" ++ hash
  joined : buildSigningString (reported env r s) s.signedHeaders = .ok s.signingString

end Spec

theorem required_ok {α : Type} {value : Option α} {message : String} {a : α}
    (ran : required value message = .ok a) : value = some a := by
  cases value with
  | none => cases ran
  | some b => cases ran; rfl

theorem caught_ok {α : Type} {x : Throws α} {a : α} (ran : caught x = .ok a) : x = .ok a := by
  cases x with
  | error message => cases ran
  | ok b => cases ran; rfl

variable {value : Option Json}

theorem assertHost_ok {host : String} (valid : assertHost value = some host) :
    value = some (.str host) := by
  unfold assertHost at valid
  split at valid
  · split at valid
    · cases valid
    · cases valid
      rfl
  · cases valid

theorem assertPath_ok {path : String} (valid : assertPath value = some path) :
    value = some (.str path) := by
  unfold assertPath at valid
  split at valid
  · split at valid
    · cases valid
      rfl
    · cases valid
  · cases valid

section Sign
variable {env : Environment} {moment : Moment} {r : Json} {s : Signed}

theorem made {actorUri keyId key : String}
    (ran : (signOne env moment actorUri keyId key r).outcome = .ok s) : Made env moment r s := by
  simp only [signOne, except_bind_ok] at ran
  obtain ⟨given, given_ok, name, named, ran⟩ := ran
  cases found : profileNamed name with
  | none =>
    rw [found] at ran
    cases ran
  | some profile =>
    rw [found] at ran
    simp only [signWith, except_bind_ok] at ran
    obtain ⟨host, host_ok, path, path_ok, ran⟩ := ran
    split at ran
    · cases ran
    rename_i listed
    simp only [except_bind_ok] at ran
    obtain ⟨date, date_ok, ran⟩ := ran
    split at ran
    · cases ran
    rename_i recent
    simp only [except_bind_ok] at ran
    obtain ⟨hash, hash_ok, query, query_ok, headers, headers_ok, contentType, contentType_ok,
      signingString, joined, signature, -, same⟩ := ran
    cases same
    have listed_headers : profile.signedHeaders = some headers := by
      have found := caught_ok headers_ok
      cases given : profile.signedHeaders with
      | none =>
        rw [given] at found
        cases found
      | some listed =>
        rw [given] at found
        cases found
        rfl
    exact
      { reports :=
          { method := ⟨given, given_ok, rfl⟩
            host := assertHost_ok (required_ok host_ok)
            path := assertPath_ok (required_ok path_ok)
            date := rfl }
        profile := ⟨name, profile, named, found, listed_headers, hash_ok⟩
        host := required_ok host_ok
        method := Decidable.not_not.mp listed
        date := by rw [reported, date_ok]; rfl
        skew := by simpa [reported, date_ok, shown] using recent
        query := by rw [query_ok]; rfl
        contentType := by simp [reported, contentType_ok, shown]
        digest := rfl
        joined := by
          simp only [reported, query_ok, date_ok, contentType_ok, shown]
          exact caught_ok joined }

variable {signedHeaders : List String}

theorem joined_lines {covered : Covered} {signingString : String}
    (joined : buildSigningString covered signedHeaders = .ok signingString) :
    signingString = "\n".intercalate (signedHeaders.map (lineOf covered)) := by
  simp only [buildSigningString, except_bind_ok] at joined
  obtain ⟨lines, written, same⟩ := joined
  cases same
  suffices lines = signedHeaders.map (lineOf covered) by rw [this]
  induction signedHeaders generalizing lines with
  | nil =>
    cases written
    rfl
  | cons header rest ih =>
    simp only [List.mapM_cons, except_bind_ok] at written
    obtain ⟨line, first, later, others, same⟩ := written
    cases same
    rw [List.map_cons, ← ih later others]
    unfold headerLine at first
    cases value : headerValue covered header with
    | none =>
      rw [value] at first
      cases first
    | some given =>
      rw [value] at first
      cases first
      simp [lineOf, value]

def getHeaders : List String := ["(request-target)", "host", "date"]

def postHeaders : List String := ["(request-target)", "host", "date", "digest"]

def typedHeaders : List String := ["(request-target)", "host", "date", "digest", "content-type"]

theorem profile_headers {name : String} {profile : Profile}
    (named : profileNamed name = some profile) (listed : profile.signedHeaders = some signedHeaders) :
    signedHeaders = getHeaders ∧ profile.requireDigest = false ∨
      signedHeaders = postHeaders ∧ profile.requireDigest = true ∨
      signedHeaders = typedHeaders ∧ profile.requireDigest = true := by
  unfold profileNamed at named
  split at named
  · rename_i found
    cases named
    obtain ⟨before, after, split, -⟩ := List.lookup_eq_some_iff.mp found
    have known : (name, profile) ∈ profiles := by simp [split]
    simp only [profiles, List.mem_cons, Prod.mk.injEq, List.not_mem_nil, or_false] at known
    rcases known with ⟨-, rfl⟩ | ⟨-, rfl⟩ | ⟨-, rfl⟩
    · cases listed
      exact .inl ⟨rfl, rfl⟩
    · cases listed
      exact .inr (.inl ⟨rfl, rfl⟩)
    · cases listed
      exact .inr (.inr ⟨rfl, rfl⟩)
  · split at named
    · cases named
      cases listed
    · cases named

theorem oneLine_append {a b : String} : OneLine (a ++ b) ↔ OneLine a ∧ OneLine b := by
  simp [OneLine, String.toList_append, not_or]

theorem oneLine_requestTarget {method path query : String} (known : method ∈ methods) :
    OneLine (buildRequestTarget method path query) ↔ OneLine path ∧ OneLine query := by
  have verb : OneLine (method.toLower ++ " ") := by
    simp only [methods, List.mem_cons, List.not_mem_nil, or_false] at known
    rcases known with rfl | rfl | rfl | rfl | rfl <;> decide +kernel
  have part : OneLine (queryPart query) ↔ OneLine query := by
    unfold queryPart
    split
    · rename_i empty
      rw [empty]
    split
    · exact Iff.rfl
    · rw [oneLine_append, and_iff_right (by simp [OneLine] : OneLine "?")]
  rw [buildRequestTarget, oneLine_append, oneLine_append, and_iff_right verb, part]

theorem oneLine_line (covered : Covered) {header : String} (named : OneLine (header ++ ": ")) :
    OneLine (lineOf covered header) ↔ OneLine ((headerValue covered header).getD "") := by
  rw [lineOf, oneLine_append, and_iff_right named]

theorem hash_of_body {profile : Profile} {hash : Option String}
    (computed : bodyHash env profile r = .ok hash) :
    profile.requireDigest = false ∧ hash = none ∨
      profile.requireDigest = true ∧
        ∃ body, parseBodyBytes r = some body ∧ hash = some (env.sha256Base64 body) := by
  unfold bodyHash at computed
  split at computed
  · rename_i wanted
    refine .inr ⟨wanted, ?_⟩
    dsimp only at computed
    split at computed
    · unfold computedDigest at computed
      cases body : parseBodyBytes r with
      | none =>
        rw [body] at computed
        cases computed
      | some bytes =>
        rw [body] at computed
        dsimp only at computed
        split at computed
        · cases computed
        · cases computed
          exact ⟨bytes, rfl, rfl⟩
    split at computed
    · unfold verifiedDigest at computed
      cases body : parseBodyBytes r with
      | none =>
        rw [body] at computed
        cases computed
      | some bytes =>
        rw [body] at computed
        dsimp only at computed
        split at computed
        · cases computed
        split at computed
        · cases computed
        split at computed
        · cases computed
        · cases computed
          exact ⟨bytes, rfl, rfl⟩
    · simp only [except_bind_ok] at computed
      obtain ⟨_, _, refused⟩ := computed
      cases refused
  · rename_i unwanted
    cases computed
    exact .inl ⟨by simpa using unwanted, rfl⟩

theorem Made.headers (made : Made env moment r s) :
    s.signedHeaders = getHeaders ∧ s.digest = none ∨
      (s.signedHeaders = postHeaders ∨ s.signedHeaders = typedHeaders) ∧
        ∃ body, parseBodyBytes r = some body ∧ s.digest = some ("SHA-256=" ++ env.sha256Base64 body) ∧
          s.bodySha256Base64 = some (env.sha256Base64 body) := by
  obtain ⟨name, profile, -, named, listed, computed⟩ := made.profile
  have digest := made.digest
  rcases hash_of_body computed with ⟨unwanted, none_computed⟩ | ⟨wanted, body, parsed, hashed⟩
  · rw [none_computed] at digest
    rcases profile_headers named listed with ⟨get, -⟩ | ⟨-, other⟩ | ⟨-, other⟩
    · exact .inl ⟨get, digest⟩
    · simp [unwanted] at other
    · simp [unwanted] at other
  · rw [hashed] at digest
    rcases profile_headers named listed with ⟨-, other⟩ | ⟨post, -⟩ | ⟨typed, -⟩
    · simp [wanted] at other
    · exact .inr ⟨.inl post, body, parsed, digest, hashed⟩
    · exact .inr ⟨.inr typed, body, parsed, digest, hashed⟩

theorem lines_iff (made : Made env moment r s) (plain : ∀ bytes, OneLine (env.sha256Base64 bytes)) :
    (∀ header ∈ s.signedHeaders, OneLine (lineOf (reported env r s) header)) ↔
      OneLine (reported env r s).requestTarget ∧ OneLine s.host ∧ OneLine (reported env r s).date ∧
        ("content-type" ∈ s.signedHeaders → OneLine (reported env r s).contentType) := by
  have target := oneLine_line (reported env r s)
    (by simp [OneLine] : OneLine ("(request-target)" ++ ": "))
  have host := oneLine_line (reported env r s) (by simp [OneLine] : OneLine ("host" ++ ": "))
  have date := oneLine_line (reported env r s) (by simp [OneLine] : OneLine ("date" ++ ": "))
  have digest := oneLine_line (reported env r s)
    (by simp [OneLine] : OneLine ("digest" ++ ": "))
  have contentType := oneLine_line (reported env r s)
    (by simp [OneLine] : OneLine ("content-type" ++ ": "))
  simp only [headerValue, Option.getD_some] at target host date digest contentType
  rcases made.headers with ⟨get, -⟩ | ⟨wanted, body, -, computed, -⟩
  · simp only [get, getHeaders, List.forall_mem_cons, target, host, date]
    simp [reported]
  · have covered : OneLine (lineOf (reported env r s) "digest") ↔ True := by
      rw [digest, show (reported env r s).digest = s.digest from rfl, computed, Option.getD_some,
        oneLine_append, iff_true]
      exact ⟨by simp [OneLine], plain body⟩
    rcases wanted with post | typed
    · simp only [post, postHeaders, List.forall_mem_cons, target, host, date, covered]
      simp [reported]
    · simp only [typed, typedHeaders, List.forall_mem_cons, target, host, date, covered, contentType]
      simp [reported]

theorem host_oneLine {value : Option Json} {host : String} (valid : assertHost value = some host) :
    OneLine host := by
  intro broken
  unfold assertHost at valid
  split at valid
  · split at valid
    · cases valid
    · rename_i text passed
      cases valid
      apply passed
      rw [Bool.or_eq_true]
      exact .inr (List.any_eq_true.mpr ⟨'\n', broken, by decide⟩)
  · cases valid

theorem split_lines_iff (made : Made env moment r s)
    (plain : ∀ bytes, OneLine (env.sha256Base64 bytes)) :
    s.signingString.toList.splitOn '\n' =
        (s.signedHeaders.map (lineOf (reported env r s))).map String.toList ↔
      OneLine s.path ∧ OneLine (shown (queryText env r)) ∧ OneLine (reported env r s).date ∧
        ("content-type" ∈ s.signedHeaders → OneLine (reported env r s).contentType) := by
  have nonempty : s.signedHeaders ≠ [] := by
    rcases made.headers with ⟨get, -⟩ | ⟨post | typed, -⟩
    · simp [get, getHeaders]
    · simp [post, postHeaders]
    · simp [typed, typedHeaders]
  have target : OneLine (reported env r s).requestTarget ↔
      OneLine s.path ∧ OneLine (shown (queryText env r)) := oneLine_requestTarget made.method
  rw [joined_lines made.joined, splitOn_joined_iff (by simpa using nonempty)]
  simp only [List.forall_mem_map]
  rw [lines_iff made plain, target, and_assoc, and_iff_right (host_oneLine made.host)]

theorem clean_iff (made : Made env moment r s) :
    Clean env moment r ↔
      OneLine s.path ∧ OneLine (shown (queryText env r)) ∧
        (OneLine (reported env r s).date ∧ (env.dateParse (reported env r s).date).isSome) ∧
        ("content-type" ∈ s.signedHeaders → OneLine (reported env r s).contentType) := by
  obtain ⟨name, profile, given, named, listed, -⟩ := made.profile
  constructor
  · intro clean
    exact ⟨clean.path s.path made.reports.path, clean.query _ made.query,
      clean.date _ made.date, fun _ => clean.contentType name profile _ _ given named listed
        made.contentType⟩
  · rintro ⟨path, query, date, contentType⟩
    constructor
    · intro other same
      rw [made.reports.path] at same
      cases same
      exact path
    · intro other same
      rw [made.query] at same
      cases same
      exact query
    · intro other same
      rw [made.date] at same
      cases same
      exact date
    · intro name' profile' headers' text same named' listed' read
      rw [given] at same
      cases same
      rw [named] at named'
      cases named'
      rw [listed] at listed'
      cases listed'
      rw [made.contentType] at read
      cases read
      by_cases signed : "content-type" ∈ s.signedHeaders
      · exact contentType signed
      · have blank : (reported env r s).contentType = "" := by
          simp [reported, contentTypeText, signed, shown]
        rw [blank]
        simp [OneLine]

theorem faithful_iff (made : Made env moment r s)
    (plain : ∀ bytes, OneLine (env.sha256Base64 bytes)) :
    Faithful env moment r s ↔ Clean env moment r := by
  have split := split_lines_iff made plain
  rw [clean_iff made]
  constructor
  · intro faithful
    obtain ⟨path, query, date, contentType⟩ := split.mp faithful.lines
    obtain ⟨t, parsed, -⟩ := faithful.date
    exact ⟨path, query, ⟨date, by simp [parsed]⟩, contentType⟩
  · rintro ⟨path, query, ⟨date, parses⟩, contentType⟩
    refine ⟨made.reports, split.mpr ⟨path, query, date, contentType⟩, ?_, ?_, ?_⟩
    · obtain ⟨t, parsed⟩ := Option.isSome_iff_exists.mp parses
      have skew := made.skew
      simp only [validateDateSkew, parsed, decide_eq_true_eq] at skew
      exact ⟨t, parsed, skew⟩
    · intro value given
      rcases made.headers with ⟨-, none_given⟩ | ⟨-, body, parsed, computed, hashed⟩
      · rw [none_given] at given
        cases given
      · rw [computed] at given
        cases given
        exact ⟨body, parsed, rfl, hashed⟩
    · intro wanted
      rcases made.headers with ⟨get, -⟩ | ⟨-, body, -, computed, -⟩
      · rw [get] at wanted
        exact absurd wanted (by decide)
      · rw [computed]
        rfl

structure Agree (env : Environment) (r r' : Json) (s s' : Signed) : Prop where
  method : s.method = s'.method
  requestTarget : (reported env r s).requestTarget = (reported env r' s').requestTarget
  host : s.host = s'.host
  date : (reported env r s).date = (reported env r' s').date
  bodySha256Base64 : s.bodySha256Base64 = s'.bodySha256Base64
  body : "digest" ∈ s.signedHeaders → parseBodyBytes r = parseBodyBytes r'

theorem lineOf_inj {covered covered' : Covered} {header : String}
    (same : lineOf covered header = lineOf covered' header) :
    (headerValue covered header).getD "" = (headerValue covered' header).getD "" := by
  have texts := congrArg String.toList same
  simp only [lineOf, String.toList_append, List.append_cancel_left_eq] at texts
  exact String.toList_inj.mp texts

theorem method_of_target {method method' path path' query query' : String}
    (known : method ∈ methods) (known' : method' ∈ methods)
    (same : buildRequestTarget method path query = buildRequestTarget method' path' query') :
    method = method' := by
  have word (m p q : String) (listed : m ∈ methods) :
      (buildRequestTarget m p q).toList.takeWhile (· ≠ ' ') = m.toLower.toList := by
    have lower : ∀ c ∈ m.toLower.toList, decide (c ≠ ' ') = true := by
      refine List.all_eq_true.mp ?_
      simp only [methods, List.mem_cons, List.not_mem_nil, or_false] at listed
      rcases listed with rfl | rfl | rfl | rfl | rfl <;> decide +kernel
    simp only [buildRequestTarget, String.toList_append, List.append_assoc]
    rw [List.takeWhile_append_of_pos lower]
    simp
  have words := word method path query known
  rw [same, word method' path' query' known'] at words
  have lower : ∀ m ∈ methods, ∀ m' ∈ methods, m'.toLower.toList = m.toLower.toList → m = m' := by
    decide +kernel
  exact lower method known method' known' words

theorem agree {moment' : Moment} {r' : Json} {s' : Signed} (made : Made env moment r s)
    (made' : Made env moment' r' s') (faithful : Faithful env moment r s)
    (faithful' : Faithful env moment' r' s')
    (collision_free : Function.Injective env.sha256Base64)
    (same : s.signingString = s'.signingString) : Agree env r r' s s' := by
  have lines : (s.signedHeaders.map (lineOf (reported env r s))) =
      s'.signedHeaders.map (lineOf (reported env r' s')) := by
    apply (List.map_inj_right fun _ _ => String.toList_inj.mp).mp
    rw [← faithful.lines, same, faithful'.lines]
  have known : s.signedHeaders ∈ [getHeaders, postHeaders, typedHeaders] := by
    rcases made.headers with ⟨get, -⟩ | ⟨post | typed, -⟩ <;> simp [*]
  have known' : s'.signedHeaders ∈ [getHeaders, postHeaders, typedHeaders] := by
    rcases made'.headers with ⟨get, -⟩ | ⟨post | typed, -⟩ <;> simp [*]
  have by_length : ∀ a ∈ [getHeaders, postHeaders, typedHeaders],
      ∀ b ∈ [getHeaders, postHeaders, typedHeaders], a.length = b.length → a = b := by decide
  have headers : s.signedHeaders = s'.signedHeaders :=
    by_length _ known _ known' (by simpa using congrArg List.length lines)
  rw [← headers] at lines
  have value : ∀ header ∈ s.signedHeaders, (headerValue (reported env r s) header).getD "" =
      (headerValue (reported env r' s') header).getD "" := fun header listed =>
    lineOf_inj (List.map_inj_left.mp lines header listed)
  have always : ∀ a ∈ [getHeaders, postHeaders, typedHeaders],
      "(request-target)" ∈ a ∧ "host" ∈ a ∧ "date" ∈ a := by decide
  obtain ⟨target_listed, host_listed, date_listed⟩ := always _ known
  have target := value _ target_listed
  have host := value _ host_listed
  have date := value _ date_listed
  have method := method_of_target made.method made'.method target
  rcases made.headers with ⟨get, no_digest⟩ | ⟨wanted, body, parsed, computed, hashed⟩
  · rcases made'.headers with ⟨-, no_digest'⟩ | ⟨wanted', -⟩
    · have no_hash : s.bodySha256Base64 = none :=
        Option.map_eq_none_iff.mp (made.digest.symm.trans no_digest)
      have no_hash' : s'.bodySha256Base64 = none :=
        Option.map_eq_none_iff.mp (made'.digest.symm.trans no_digest')
      refine ⟨method, target, host, date, no_hash.trans no_hash'.symm, fun listed => ?_⟩
      rw [get] at listed
      exact absurd listed (by decide)
    · rw [← headers, get] at wanted'
      exact absurd wanted' (by decide)
  · rcases made'.headers with ⟨get', -⟩ | ⟨-, body', parsed', computed', hashed'⟩
    · rw [headers, get'] at wanted
      exact absurd wanted (by decide)
    · have listed : "digest" ∈ s.signedHeaders := by
        rcases wanted with post | typed
        · rw [post]
          decide
        · rw [typed]
          decide
      have digests : "SHA-256=" ++ env.sha256Base64 body = "SHA-256=" ++ env.sha256Base64 body' := by
        simpa [headerValue, reported, computed, computed'] using value _ listed
      have hashes := congrArg String.toList digests
      simp only [String.toList_append, List.append_cancel_left_eq] at hashes
      have bodies : body = body' := collision_free (String.toList_inj.mp hashes)
      exact ⟨method, target, host, date, by rw [hashed, hashed', bodies],
        fun _ => by rw [parsed, parsed', bodies]⟩

end Sign

section Batch
variable (env : Environment)

def answerIn (group : Group) (item : Json × Nat) : SigningResult :=
  match signer env group.actorUri with
  | .error e => err item.1 e.code e.message e.retryable
  | .ok (uri, keyId, key) => signOne env (env.moment item.2) uri keyId key item.1

theorem signGroup_eq (group : Group) :
    signGroup env group.actorUri group.items = group.items.map (answerIn env group) := by
  unfold signGroup answerIn
  cases signer env group.actorUri with
  | error e => rfl
  | ok found => rfl

theorem addToGroup_perm (key : ActorKey) (actorUri : Json) (item : Json × Nat)
    (groups : List Group) :
    ((addToGroup key actorUri item groups).flatMap Group.items).Perm
      (groups.flatMap Group.items ++ [item]) := by
  induction groups with
  | nil => exact .refl _
  | cons group rest ih =>
    unfold addToGroup
    split
    · simp only [List.flatMap_cons, List.append_assoc]
      exact List.perm_append_comm.append_left group.items
    · simp only [List.flatMap_cons, List.append_assoc]
      exact ih.append_left group.items

theorem byActor_perm (items : List (Json × Nat)) : ((byActor items).flatMap Group.items).Perm items := by
  have grouped (groups : List Group) :
      ((items.foldl
        (fun groups item =>
          let actorUri := orElse (property item.1 "actorUri") (.str "")
          addToGroup (actorKey actorUri item.2) actorUri item groups) groups).flatMap
        Group.items).Perm (groups.flatMap Group.items ++ items) := by
    induction items generalizing groups with
    | nil => simp
    | cons item rest ih =>
      rw [List.foldl_cons]
      apply (ih _).trans
      rw [List.append_cons]
      exact (addToGroup_perm _ _ item groups).append_right rest
  exact grouped []

theorem answerIn_requestId (group : Group) (item : Json × Nat) :
    (answerIn env group item).requestId = property item.1 "requestId" := by
  unfold answerIn
  cases signer env group.actorUri with
  | error e => rfl
  | ok found => rfl

theorem answerIn_made {group : Group} {item : Json × Nat} {s : Signed}
    (ran : (answerIn env group item).outcome = .ok s) : Made env (env.moment item.2) item.1 s := by
  unfold answerIn at ran
  cases found : signer env group.actorUri with
  | error e =>
    rw [found] at ran
    cases ran
  | ok signer =>
    rw [found] at ran
    exact made ran

theorem batch_served {authorization : Option String} {requests : List Json}
    {results : List SigningResult}
    (ran : signHttpRequestsBatch env authorization requests = .ok results) :
    ∃ served : List ((Json × Nat) × SigningResult),
      (served.map Prod.fst).Perm requests.zipIdx ∧ results = served.map Prod.snd ∧
      ∀ entry ∈ served, entry.2.requestId = property entry.1.1 "requestId" ∧
        ∀ s, entry.2.outcome = .ok s → Made env (env.moment entry.1.2) entry.1.1 s := by
  simp only [signHttpRequestsBatch, except_bind_ok] at ran
  obtain ⟨_, -, ran⟩ := ran
  split at ran
  · cases ran
    refine ⟨requests.zipIdx.map fun item => (item, err item.1 .invalidInput
      s!"maxBatch={env.settings.limits.maxBatch} exceeded" false), ?_, ?_, ?_⟩
    · simp [Function.comp_def]
    · rw [List.map_map]
      calc requests.map (fun r => err r .invalidInput
              s!"maxBatch={env.settings.limits.maxBatch} exceeded" false)
          = (requests.zipIdx.map Prod.fst).map (fun r => err r .invalidInput
              s!"maxBatch={env.settings.limits.maxBatch} exceeded" false) := by
            rw [List.zipIdx_map_fst]
        _ = _ := by rw [List.map_map]; rfl
    · intro entry listed
      obtain ⟨item, -, rfl⟩ := List.mem_map.mp listed
      exact ⟨rfl, nofun⟩
  · cases ran
    refine ⟨(byActor requests.zipIdx).flatMap fun group =>
      group.items.map fun item => (item, answerIn env group item), ?_, ?_, ?_⟩
    · simpa [List.map_flatMap, Function.comp_def] using byActor_perm requests.zipIdx
    · simp [List.map_flatMap, signGroup_eq, Function.comp_def]
    · intro entry listed
      obtain ⟨group, -, inside⟩ := List.mem_flatMap.mp listed
      obtain ⟨item, -, rfl⟩ := List.mem_map.mp inside
      exact ⟨answerIn_requestId env group item, fun s ran => answerIn_made env ran⟩

end Batch

/-- What holds of a batch with its results: every request has one result with its id; a signed
result is faithful exactly when its request is clean; and clean requests with one signed text
agree. -/
structure Accounted (env : Environment) (requests : List Json) (results : List SigningResult)
    (served : List ((Json × Nat) × SigningResult)) : Prop where
  requests : (served.map Prod.fst).Perm requests.zipIdx
  results : results = served.map Prod.snd
  requestId : ∀ entry ∈ served, entry.2.requestId = property entry.1.1 "requestId"
  faithful_iff : ∀ entry ∈ served, ∀ s, entry.2.outcome = .ok s →
    (Faithful env (env.moment entry.1.2) entry.1.1 s ↔
      Clean env (env.moment entry.1.2) entry.1.1)
  agree : ∀ entry ∈ served, ∀ other ∈ served, ∀ s s',
    entry.2.outcome = .ok s → other.2.outcome = .ok s' →
    Clean env (env.moment entry.1.2) entry.1.1 → Clean env (env.moment other.1.2) other.1.1 →
    s.signingString = s'.signingString → Agree env entry.1.1 other.1.1 s s'

theorem signs_what_it_reports_iff {env : Environment}
    (plain : ∀ bytes, OneLine (env.sha256Base64 bytes))
    (collision_free : Function.Injective env.sha256Base64)
    {authorization : Option String} {requests : List Json} {results : List SigningResult}
    (ran : signHttpRequestsBatch env authorization requests = .ok results) :
    ∃ served, Accounted env requests results served := by
  obtain ⟨served, order, answered, known⟩ := batch_served env ran
  refine ⟨served, order, answered, fun entry listed => (known entry listed).1,
    fun entry listed s signed => faithful_iff ((known entry listed).2 s signed) plain, ?_⟩
  intro entry listed other listed' s s' signed signed' clean clean' same
  have made := (known entry listed).2 s signed
  have made' := (known other listed').2 s' signed'
  exact agree made made' ((faithful_iff made plain).mpr clean) ((faithful_iff made' plain).mpr clean')
    collision_free same

def newYear : String := "Mon, 01 Jan 2024 00:00:00 GMT"

def byteChar (byte : UInt8) : Char where
  val := UInt32.ofNatLT (byte.toNat + 256) (by have := byte.toNat_lt; simp only [UInt32.size]; omega)
  valid := by
    have small : byte.toNat < 256 := byte.toNat_lt
    simp only [UInt32.isValidChar, UInt32.toNat_ofNatLT, Nat.isValidChar]
    omega

def hashText (bytes : ByteArray) : String :=
  if bytes = "\x7b\x7d".toUTF8 then "RBNvo1WzZ4oRRq0W9+hknpT7T8If536DEMBg9hyq/4o="
  else String.ofList (bytes.data.toList.map byteChar)

def office : Environment where
  numberText _ := "0"
  toUpperCase := String.toUpper
  dateParse date := if date = newYear then some 1704067200000 else none
  toUTCString _ := newYear
  sha256Base64 := hashText
  signRsaSha256 _ _ := .ok "c2ln"
  isUrl _ := true
  isLocal _ := .ok true
  resolveWebId uri := .ok uri
  privateKey _ := .ok (some "key")
  publicKeyId uri := .ok (uri ++ "#main-key")
  moment _ := ⟨1704067200000, 1704067200000⟩
  settings := ⟨"token", ⟨500, 524288, 300⟩⟩

theorem byteChar_toNat (byte : UInt8) : (byteChar byte).toNat = byte.toNat + 256 := by
  have small : byte.toNat < 256 := byte.toNat_lt
  simp only [byteChar, Char.toNat, UInt32.toNat_ofNatLT]

theorem hashText_plain (bytes : ByteArray) : OneLine (hashText bytes) := by
  unfold hashText
  split
  · simp [OneLine]
  · rw [OneLine, String.toList_ofList]
    intro broken
    obtain ⟨byte, -, same⟩ := List.mem_map.mp broken
    have code := byteChar_toNat byte
    rw [same] at code
    have feed : '\n'.toNat = 10 := by decide
    omega

theorem byteChar_injective : Function.Injective byteChar := by
  intro a b same
  have codes := byteChar_toNat a
  rw [same, byteChar_toNat b] at codes
  exact UInt8.toNat_inj.mp (by omega)

theorem hashText_known {bytes : ByteArray} (other : bytes ≠ "\x7b\x7d".toUTF8) :
    hashText bytes ≠ hashText "\x7b\x7d".toUTF8 := by
  intro same
  rw [hashText, if_neg other, hashText, if_pos rfl] at same
  have letter : 'R' ∈ (String.ofList (bytes.data.toList.map byteChar)).toList := by
    rw [same]
    simp [OneLine]
  rw [String.toList_ofList] at letter
  obtain ⟨byte, -, known⟩ := List.mem_map.mp letter
  have code := byteChar_toNat byte
  rw [known] at code
  have capital : 'R'.toNat = 82 := by decide
  omega

theorem hashText_injective : Function.Injective hashText := by
  intro a b same
  by_cases known : a = "\x7b\x7d".toUTF8
  · by_cases known' : b = "\x7b\x7d".toUTF8
    · rw [known, known']
    · rw [known] at same
      exact absurd same.symm (hashText_known known')
  · by_cases known' : b = "\x7b\x7d".toUTF8
    · rw [known'] at same
      exact absurd same (hashText_known known)
    · rw [hashText, if_neg known, hashText, if_neg known'] at same
      have chars := String.ofList_injective same
      have bytes := (List.map_inj_right fun _ _ eq => byteChar_injective eq).mp chars
      exact ByteArray.ext (Array.toList_inj.mp bytes)

def request (profile host path : String) (more : List (String × Json)) : Json :=
  .obj ([("requestId", .str path), ("actorUri", .str "https://pod.example/alice"),
    ("method", .str "get"), ("profile", .str profile),
    ("target", .obj [("host", .str host), ("path", .str path)])] ++ more)

def batch (requests : List Json) : Except (Nat × String) (List SigningResult) :=
  signHttpRequestsBatch office (some "Bearer token") requests

def delivery : Json :=
  request "ap_post_v1" "other.example" "/inbox" [("body", .obj [("bytes", .str "\x7b\x7d")])]

theorem signs_what_it_reports_iff_delivery :
    ∃ results served, batch [delivery] = .ok results ∧
      (results.map fun result => result.outcome.isOk) = [true] ∧
      Accounted office [delivery] results served := by
  have signed : (batch [delivery]).toOption.map (fun results => results.map fun result =>
      result.outcome.isOk) = some [true] := by decide +kernel
  cases ran : batch [delivery] with
  | error e =>
    rw [ran] at signed
    simp [Except.toOption] at signed
  | ok results =>
    rw [ran] at signed
    obtain ⟨served, accounted⟩ := signs_what_it_reports_iff hashText_plain hashText_injective ran
    exact ⟨results, served, rfl, by simpa [Except.toOption] using signed, accounted⟩

def signedTexts (requests : List Json) : Option (List (String × String)) :=
  (batch requests).toOption.map fun results =>
    results.filterMap fun result => result.outcome.toOption.map fun s => (s.host, s.signingString)

def lineInPath : Json :=
  request "ap_get_v1" "y.example" "/a\nhost: x.example\ndate: D"
    [("headers", .obj [("date", .str "E")])]

def linesInDate : Json :=
  request "ap_get_v1" "x.example" "/a"
    [("headers", .obj [("date", .str "D\nhost: y.example\ndate: E")])]

def sharedText : String :=
  "(request-target): get /a\nhost: x.example\ndate: D\nhost: y.example\ndate: E"

/-- The path of one request and the date of another one hold line feeds: one signed text stands for
two hosts. Neither date can be parsed. -/
theorem signed_text_of_two_hosts :
    signedTexts [lineInPath, linesInDate] =
      some [("y.example", sharedText), ("x.example", sharedText)] ∧
    office.dateParse "E" = none := by
  decide +kernel

end MastopodFederation.Guarantees.SignedReports
