import MastopodFederation.Guarantees.SignedReports
import MastopodFederation.Source.InboundVerification

/-!
# What the signing service signs, the inbound worker accepts

The header of a signed result is read back as it was written, and the receiver's signing
string is the text that was signed, for each of the profiles.
-/
namespace MastopodFederation.Guarantees.SignedDeliveries
open Lib.LuaTable (Json)
open Source.DelayedQueue (jsTruthy)
open Lib.Logged (except_bind_ok)
open Source.HttpSignature hiding Environment signedValue buildSigningString
open Source.InboundVerification
open Source.SigningService hiding buildSigningString
open SignedReports

def Plain (text : String) : Prop := text ≠ "" ∧ '\x22' ∉ text.toList

variable {allowEmpty : Bool}

theorem scan_word {letters : List Char} (word rest : List Char)
    (wordy : ∀ c ∈ letters, isWordChar c) :
    scan allowEmpty (.outside word) (letters ++ rest) =
      scan allowEmpty (.outside (word ++ letters)) rest := by
  induction letters generalizing word with
  | nil => simp
  | cons c letters ih =>
    obtain ⟨first, wordy⟩ := List.forall_mem_cons.mp wordy
    rw [List.cons_append, scan, scanStep, if_pos first]
    simpa using ih (word ++ [c]) wordy

theorem scan_value {chars : List Char} (word value rest : List Char) (plain : '\x22' ∉ chars) :
    scan allowEmpty (.quoted word value) (chars ++ rest) =
      scan allowEmpty (.quoted word (value ++ chars)) rest := by
  induction chars generalizing value with
  | nil => simp
  | cons c chars ih =>
    obtain ⟨first, plain⟩ := not_or.mp (List.mem_cons.not.mp plain)
    rw [List.cons_append, scan, scanStep, if_pos (Ne.symm first)]
    simpa using ih (value ++ [c]) plain

theorem scan_param {key : String} (value : String) (rest : List Char)
    (wordy : key ≠ "" ∧ ∀ c ∈ key.toList, isWordChar c) (plain : Plain value) :
    scan allowEmpty (.outside []) ((key ++ "=\x22" ++ value ++ "\x22").toList ++ rest) =
      (key, value) :: scan allowEmpty (.outside []) rest := by
  have named : key.toList.isEmpty = false := by simpa using wordy.1
  have given : value.toList.isEmpty = false := by simpa using plain.1
  have letter : isWordChar '=' = false := by decide
  have opened (more : List Char) : scan allowEmpty (.outside key.toList) ('=' :: '\x22' :: more) =
      scan allowEmpty (.quoted key.toList []) more := by
    simp [scan, scanStep, letter, named]
  have closed : scan allowEmpty (.quoted key.toList value.toList) ('\x22' :: rest) =
      (key, value) :: scan allowEmpty (.outside []) rest := by
    simp [scan, scanStep, given]
  simp only [String.toList_append, List.append_assoc]
  rw [scan_word [] _ wordy.2]
  refine (opened (value.toList ++ '\x22' :: rest)).trans ?_
  rw [scan_value _ _ _ plain.2]
  exact closed

theorem parse_signatureHeader {keyId algorithm signature : String} {signedHeaders : List String}
    (key : Plain keyId) (named : Plain algorithm) (listed : Plain (" ".intercalate signedHeaders))
    (signed : Plain signature) :
    signatureParams (signatureHeader keyId algorithm signedHeaders signature) =
      some ⟨keyId, signature, " ".intercalate signedHeaders⟩ := by
  have comma (rest : List Char) : scan false (.outside []) (',' :: rest) =
      scan false (.outside []) rest := rfl
  have parsed : parseSignatureHeader false (signatureHeader keyId algorithm signedHeaders signature) =
      [("signature", signature), ("headers", " ".intercalate signedHeaders),
        ("algorithm", algorithm), ("keyId", keyId)] := by
    have chars : (signatureHeader keyId algorithm signedHeaders signature).toList =
        ("keyId" ++ "=\x22" ++ keyId ++ "\x22").toList ++ (',' ::
          (("algorithm" ++ "=\x22" ++ algorithm ++ "\x22").toList ++ (',' ::
            (("headers" ++ "=\x22" ++ " ".intercalate signedHeaders ++ "\x22").toList ++ (',' ::
              (("signature" ++ "=\x22" ++ signature ++ "\x22").toList ++ [])))))) := by
      simp [signatureHeader, String.toList_intercalate]
    have wordy : ∀ key ∈ ["keyId", "algorithm", "headers", "signature"],
        key ≠ "" ∧ ∀ c ∈ key.toList, isWordChar c := by simp; decide
    simp only [List.forall_mem_cons] at wordy
    obtain ⟨first, second, third, fourth, -⟩ := wordy
    rw [parseSignatureHeader, chars, scan_param _ _ first key, comma, scan_param _ _ second named,
      comma, scan_param _ _ third listed, comma, scan_param _ _ fourth signed]
    rfl
  simp [signatureParams, parsed, List.lookup]

section Sign
variable {env : Environment} {moment : Moment} {r : Json} {s : Signed} {envelope : InboundEnvelope}
  {actorUri keyId key : String}

structure Carries (env : Environment) (r : Json) (s : Signed) (envelope : InboundEnvelope) :
    Prop where
  method : envelope.method = s.method
  path : envelope.path = s.path ++ queryPart (shown (queryText env r))
  host : envelope.header "host" = some s.host
  date : envelope.header "date" = some (reported env r s).date
  digest : envelope.header "digest" = s.digest
  contentType : "content-type" ∈ s.signedHeaders →
    envelope.header "content-type" = some (reported env r s).contentType
  signature : envelope.header "signature" = some s.signature
  body : ∀ bytes, parseBodyBytes r = some bytes → bytes = envelope.body.toUTF8

theorem requestTarget_eq {method path query : String} (known : method ∈ methods) :
    requestTarget method (path ++ queryPart query) = buildRequestTarget method path query := by
  have lower : ∀ m ∈ methods, toLowerCase m = m.toLower := by decide +kernel
  rw [requestTarget, buildRequestTarget, lower method known, ← String.append_assoc]

theorem value_carried (made : Made env moment r s) (carried : Carries env r s envelope) :
    ∀ name ∈ s.signedHeaders, toLowerCase name = name ∧
      signedValue envelope name = some ((headerValue (reported env r s) name).getD "") := by
  intro name listed
  have typed : name ∈ typedHeaders := by
    have known : ∀ names ∈ [getHeaders, postHeaders, typedHeaders], ∀ header ∈ names,
        header ∈ typedHeaders := by decide
    rcases made.headers with ⟨get, -⟩ | ⟨post | other, -⟩ <;>
      exact known s.signedHeaders (by simp [*]) name listed
  have lower : ∀ header ∈ typedHeaders, toLowerCase header = header := by decide +kernel
  refine ⟨lower name typed, ?_⟩
  simp only [typedHeaders, List.mem_cons, List.not_mem_nil, or_false] at typed
  rcases typed with rfl | rfl | rfl | rfl | rfl
  · rw [signedValue, if_pos rfl, carried.method, carried.path, requestTarget_eq made.method]
    rfl
  · rw [signedValue, if_neg (by decide), if_pos (by decide), carried.host]
    rfl
  · rw [signedValue, if_neg (by decide), if_pos (by decide), carried.date]
    rfl
  · rw [signedValue, if_neg (by decide), if_pos (by decide), carried.digest]
    rcases made.headers with ⟨get, -⟩ | ⟨-, body, -, digest, -⟩
    · rw [get] at listed
      exact absurd listed (by decide)
    · simp [headerValue, reported, digest]
  · rw [signedValue, if_neg (by decide), if_pos (by decide), carried.contentType listed]
    rfl

theorem same_signingString (made : Made env moment r s) (carried : Carries env r s envelope) :
    buildSigningString envelope s.signedHeaders = s.signingString := by
  have lines : ∀ {names : List String}, (∀ name ∈ names, toLowerCase name = name ∧
      signedValue envelope name = some ((headerValue (reported env r s) name).getD "")) →
      signingLines (signedValue envelope) names = names.map (lineOf (reported env r s)) := by
    intro names agree
    induction names with
    | nil => rfl
    | cons name names ih =>
      obtain ⟨⟨lower, value⟩, agree⟩ := List.forall_mem_cons.mp agree
      rw [List.map_cons, ← ih agree, signingLines, List.filterMap_cons, lower, value]
      rfl
  rw [joined_lines made.joined, buildSigningString,
    lines (value_carried made carried)]

theorem signed_header (ran : (signOne env moment actorUri keyId key r).outcome = .ok s) :
    ∃ signature, env.signRsaSha256 key s.signingString = .ok signature ∧
      s.signature = signatureHeader keyId "rsa-sha256" s.signedHeaders signature := by
  simp only [signOne, except_bind_ok] at ran
  obtain ⟨given, -, name, -, ran⟩ := ran
  cases found : profileNamed name with
  | none =>
    rw [found] at ran
    cases ran
  | some profile =>
    rw [found] at ran
    simp only [signWith, except_bind_ok] at ran
    obtain ⟨_, -, _, -, ran⟩ := ran
    split at ran
    · cases ran
    simp only [except_bind_ok] at ran
    obtain ⟨_, -, ran⟩ := ran
    split at ran
    · cases ran
    simp only [except_bind_ok] at ran
    obtain ⟨_, -, _, -, headers, listed, _, -, _, -, signature, signed, same⟩ := ran
    cases same
    have algorithm : profile.algorithm = "rsa-sha256" := by
      unfold profileNamed at found
      split at found
      next among =>
        cases found
        obtain ⟨before, after, split, -⟩ := List.lookup_eq_some_iff.mp among
        have known : (name, profile) ∈ profiles := by simp [split]
        have uniform : ∀ entry ∈ profiles, entry.2.algorithm = "rsa-sha256" := by decide
        exact uniform _ known
      next =>
        split at found
        · cases found
          cases caught_ok listed
        · cases found
    exact ⟨signature, caught_ok signed, by rw [algorithm]⟩

/-- A request that the service signed, and that arrives as it was signed, is accepted, and its
sender is the owner of the key: for every profile, with the hash and the signature scheme that
the two sides share. -/
theorem signed_accepted {crypto : Crypto} {answers : Answers} {document : Json} {pem owner : String}
    (ran : (signOne env moment actorUri keyId key r).outcome = .ok s)
    (carried : Carries env r s envelope)
    (hash : crypto.sha256 envelope.body.toUTF8.toList = env.sha256Base64 envelope.body.toUTF8)
    (verifies : ∀ signature, env.signRsaSha256 key s.signingString = .ok signature →
      Plain signature ∧ crypto.verify pem s.signingString signature = .ok true)
    (named : Plain keyId)
    (fetched : (fetchActorDocument answers keyId).1 = .ok (some document))
    (published : extractPublicKeyPemFromVerificationDocument document = some pem)
    (owned : resolveActorUriFromVerificationDocument keyId document = some owner)
    (someone : owner ≠ "") :
    verifySignature crypto answers envelope = .valid owner := by
  have made := made ran
  obtain ⟨signature, signed, header⟩ := signed_header ran
  obtain ⟨plain, verified⟩ := verifies signature signed
  have known : s.signedHeaders ∈ [getHeaders, postHeaders, typedHeaders] := by
    rcases made.headers with ⟨get, -⟩ | ⟨post | typed, -⟩ <;> simp [*]
  have readable : ∀ names ∈ [getHeaders, postHeaders, typedHeaders],
      Plain (" ".intercalate names) ∧ split ' ' (" ".intercalate names) = names := by
    unfold Plain
    decide +kernel
  obtain ⟨listed, names⟩ := readable _ known
  have algorithm : Plain "rsa-sha256" := by simp [Plain]
  have parsed := parse_signatureHeader named algorithm listed plain
  rw [← header] at parsed
  have nonempty : s.signature ≠ "" := by
    intro none
    rw [none] at parsed
    cases parsed
  have truthy : jsTruthy document = true := by
    cases document with
    | obj | arr => rfl
    | null | bool | num | str => cases published
  have sent : envelope.setHeader "signature" = some s.signature := by
    rw [InboundEnvelope.setHeader, carried.signature]
    exact Option.filter_some_pos (by simpa using nonempty)
  have digest : digestMatches crypto ((envelope.setHeader "digest").map HeaderValue.one)
      envelope.body.toUTF8.toList = true := by
    rw [InboundEnvelope.setHeader, carried.digest]
    rcases made.headers with ⟨-, none⟩ | ⟨-, body, parsed_body, given, -⟩
    · rw [none]
      rfl
    · rw [given, Option.filter_some_pos (by simp)]
      obtain rfl := carried.body body parsed_body
      exact decide_eq_true (by rw [expectedDigest, hash])
  have fits : crypto.verify pem (buildSigningString envelope
      (⟨keyId, signature, " ".intercalate s.signedHeaders⟩ : SignatureParams).names) signature =
      .ok true := by
    rw [SignatureParams.names, names, same_signingString made carried, verified]
  simp only [verifySignature, sent, parsed, fetched, Option.filter_some_pos truthy,
    verifyWithDocument, published, digest, fits, owned]
  simp [someone]

end Sign

def arrived (s : Signed) : InboundEnvelope where
  envelopeId := "1"
  method := s.method
  path := s.path
  headers := [("host", s.host), ("date", newYear), ("signature", s.signature),
    ("content-type", (reported office delivery s).contentType)] ++ s.digest.toList.map ("digest", ·)
  body := "\x7b\x7d"
  remoteIp := "192.0.2.1"
  receivedAt := 1704067200000
  attempt := 0
  notBeforeMs := 0
  verification := none

def aliceDocument : Json :=
  .obj [("owner", .str "https://pod.example/alice"), ("publicKeyPem", .str "PEM")]

def keyServer : Answers := ⟨fun _ => .ok (some aliceDocument), fun _ => .error "offline", .ok ()⟩

def shared : Crypto where
  sha256 _ := "RBNvo1WzZ4oRRq0W9+hknpT7T8If536DEMBg9hyq/4o="
  verify _ _ signature := .ok (signature = "c2ln")

def aliceKeyId : String := "https://pod.example/alice#main-key"

theorem signed_accepted_delivery : ∃ s,
    (signOne office ⟨1704067200000, 1704067200000⟩ "https://pod.example/alice" aliceKeyId "key"
      delivery).outcome = .ok s ∧
    verifySignature shared keyServer (arrived s) = .valid "https://pod.example/alice" := by
  have signs : (signOne office ⟨1704067200000, 1704067200000⟩ "https://pod.example/alice" aliceKeyId
      "key" delivery).outcome.isOk = true := by decide +kernel
  cases ran : (signOne office ⟨1704067200000, 1704067200000⟩ "https://pod.example/alice" aliceKeyId
      "key" delivery).outcome with
  | error e =>
    rw [ran] at signs
    cases signs
  | ok s =>
    have body : parseBodyBytes delivery = some "\x7b\x7d".toUTF8 := rfl
    have plain : Plain "c2ln" ∧ Plain aliceKeyId := by simp [Plain, aliceKeyId]
    have carried : Carries office delivery s (arrived s) := by
      refine ⟨rfl, (String.append_empty).symm, rfl, ?_, ?_, fun _ => rfl, rfl, ?_⟩
      · rw [reported, (made ran).reports.date]
        rfl
      · unfold arrived InboundEnvelope.header
        cases s.digest <;> rfl
      · intro bytes given
        exact Option.some.inj (given.symm.trans body)
    refine ⟨s, rfl, signed_accepted ran carried ?_ ?_ plain.2 rfl rfl rfl ?_⟩
    · change shared.sha256 [] = hashText "\x7b\x7d".toUTF8
      rw [hashText, if_pos rfl]
      rfl
    · rintro signature same
      cases same
      exact ⟨plain.1, rfl⟩
    · decide

end MastopodFederation.Guarantees.SignedDeliveries
