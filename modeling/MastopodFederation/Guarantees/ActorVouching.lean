import MastopodFederation.Source.InboundVerification
import Mathlib.Data.List.Forall2
import Mathlib.Data.List.Induction

/-!
# Who vouches for a verified actor

The key document that verifies a signature was served by its own URL, now or at the earlier step
that put it into the cache. The key comes from the actor's origin exactly where the document
names an actor of its own origin.
-/
namespace MastopodFederation.Guarantees.ActorVouching
open Lib.LuaTable Source.DelayedQueue Source.HttpSignature Source.InboundVerification

/-- One envelope and what it meets: the documents at this time, the entries that have
expired, and failures of the store. -/
structure Step where
  envelope : InboundEnvelope
  network : String → Except String HttpAnswer
  expired : String → Bool
  readFails : String → Option String
  cacheActorDoc : Except String Unit

abbrev Cache := String → Option Json

def Step.answers (step : Step) (cache : Cache) : Answers where
  getCachedActorDoc url :=
    match step.readFails url with
    | some message => .error message
    | none => .ok (if step.expired url then none else cache url)
  request := step.network
  cacheActorDoc := step.cacheActorDoc

def Step.params (step : Step) : Option SignatureParams :=
  (step.envelope.setHeader "signature").bind signatureParams

def Step.cacheAfter (step : Step) (cache : Cache) : Cache :=
  match step.params with
  | none => cache
  | some params => fun url =>
    if url = beforeHash params.keyId then
      ((fetchActorDocument (step.answers cache) params.keyId).2).or (cache url)
    else cache url

def cacheOf (steps : List Step) : Cache := steps.foldl (fun cache step => step.cacheAfter cache) fun _ => none

def result (crypto : Crypto) (earlier : List Step) (step : Step) : VerificationResult :=
  verifySignature crypto (step.answers (cacheOf earlier)) step.envelope

def Served (steps : List Step) (url : String) (document : Json) : Prop :=
  ∃ step ∈ steps, ∃ answer, step.network url = .ok answer ∧ answer.statusCode = 200 ∧
    answer.json = .ok document

def Absent (field : Option Json) : Prop := field = none ∨ field = some .null

inductive OwnerField (document : List (String × Json)) (value : Json) : Prop where
  | owner (present : document.lookup "owner" = some value)
  | controller (owner : Absent (document.lookup "owner"))
      (present : document.lookup "controller" = some value)
  | keyOwner (owner : Absent (document.lookup "owner"))
      (controller : Absent (document.lookup "controller"))
      (present : (publicKeyOf document).lookup "owner" = some value)
  | keyController (owner : Absent (document.lookup "owner"))
      (controller : Absent (document.lookup "controller"))
      (keyOwner : Absent ((publicKeyOf document).lookup "owner"))
      (present : (publicKeyOf document).lookup "controller" = some value)

inductive Names (document : List (String × Json)) (actorUri : String) : Prop where
  | owner (field : OwnerField document (.str actorUri)) (nonempty : actorUri ≠ "")
  | id (unowned : ∀ owner, OwnerField document (.str owner) → owner = "")
      (present : document.lookup "id" = some (.str actorUri)) (nonempty : actorUri ≠ "")
      (actor : looksLikeActorDocument document = true)

def NamesOwnOrigin (origin : String → Option String) (url : String) (document : Json) : Prop :=
  ∀ actorUri, Names (recordOf document) actorUri → origin actorUri = origin url

theorem orElse_eq_some {field other : Option Json} {value : Json} (set : value ≠ .null) :
    orElse field other = some value ↔ field = some value ∨ Absent field ∧ other = some value := by
  cases field with
  | none => simp [orElse, Absent]
  | some found =>
    cases found with
    | null => simp [orElse, Absent, set.symm]
    | _ => simp [orElse, Absent]

theorem ownerCandidate_iff {document : List (String × Json)} {text : String} :
    ownerCandidate document = some (.str text) ↔ OwnerField document (.str text) := by
  have set : Json.str text ≠ .null := by simp
  have absent : ∀ {field other : Option Json}, Absent (orElse field other) ↔
      Absent field ∧ Absent other := by
    intro field other
    cases field with
    | none => simp [orElse, Absent]
    | some found => cases found <;> simp [orElse, Absent]
  simp only [ownerCandidate, orElse_eq_some set, absent]
  constructor
  · rintro (((present | ⟨owner, present⟩) | ⟨⟨owner, controller⟩, present⟩) |
      ⟨⟨⟨owner, controller⟩, keyOwner⟩, present⟩)
    · exact .owner present
    · exact .controller owner present
    · exact .keyOwner owner controller present
    · exact .keyController owner controller keyOwner present
  · rintro (present | ⟨owner, present⟩ | ⟨owner, controller, present⟩ |
      ⟨owner, controller, keyOwner, present⟩)
    · exact .inl (.inl (.inl present))
    · exact .inl (.inl (.inr ⟨owner, present⟩))
    · exact .inl (.inr ⟨⟨owner, controller⟩, present⟩)
    · exact .inr ⟨⟨⟨owner, controller⟩, keyOwner⟩, present⟩

theorem nonEmptyText_eq_some {field : Option Json} {text : String} :
    nonEmptyText field = some text ↔ field = some (.str text) ∧ text ≠ "" := by
  cases field with
  | none => simp [nonEmptyText]
  | some value =>
    cases value with
    | str found =>
      by_cases empty : found = ""
      · simp only [nonEmptyText, if_pos empty, reduceCtorEq, Option.some.injEq, Json.str.injEq,
          false_iff, not_and, not_not]
        rintro rfl
        exact empty
      · simp only [nonEmptyText, if_neg empty, Option.some.injEq, Json.str.injEq]
        constructor
        · rintro rfl
          exact ⟨rfl, empty⟩
        · exact fun same => same.1
    | _ => simp [nonEmptyText]

theorem namedActor_iff {document : List (String × Json)} {actorUri : String} :
    namedActor document = some actorUri ↔ Names document actorUri := by
  constructor
  · intro named
    simp only [namedActor] at named
    split at named
    case h_1 owner owned =>
      obtain rfl := Option.some.inj named
      obtain ⟨field, nonempty⟩ := nonEmptyText_eq_some.mp owned
      exact .owner (ownerCandidate_iff.mp field) nonempty
    case h_2 unowned =>
      split at named
      case h_1 id found =>
        split at named
        case isTrue actor =>
          obtain rfl := Option.some.inj named
          obtain ⟨present, nonempty⟩ := nonEmptyText_eq_some.mp found
          refine .id (fun owner field => ?_) present nonempty actor
          by_contra set
          have owned := nonEmptyText_eq_some.mpr ⟨ownerCandidate_iff.mpr field, set⟩
          simp [owned] at unowned
        case isFalse => simp at named
      case h_2 => simp at named
  · rintro (⟨field, nonempty⟩ | ⟨unowned, present, nonempty, actor⟩)
    · have owned := nonEmptyText_eq_some.mpr ⟨ownerCandidate_iff.mpr field, nonempty⟩
      simp [namedActor, owned]
    · have absent : nonEmptyText (ownerCandidate document) = none := by
        rw [Option.eq_none_iff_forall_ne_some]
        intro owner owned
        obtain ⟨field, set⟩ := nonEmptyText_eq_some.mp owned
        exact set (unowned owner (ownerCandidate_iff.mp field))
      have found := nonEmptyText_eq_some.mpr ⟨present, nonempty⟩
      simp [namedActor, absent, found, actor]

variable {document : Json} {answers : Answers} {keyId : String}

theorem fetchActorDocument_ok
    (fetched : (fetchActorDocument answers keyId).1 = .ok (some document)) :
    answers.getCachedActorDoc (beforeHash keyId) = .ok (some document) ∨
      ∃ answer, answers.request (beforeHash keyId) = .ok answer ∧ answer.statusCode = 200 ∧
        answer.json = .ok document := by
  simp only [fetchActorDocument] at fetched
  split at fetched
  case isTrue => simp at fetched
  case isFalse =>
    split at fetched
    case h_1 => simp at fetched
    case h_2 read found =>
      split at fetched
      case h_1 cached present =>
        obtain ⟨rfl, -⟩ := Option.filter_eq_some_iff.mp present
        obtain rfl : cached = document := by simpa using fetched
        exact .inl found
      case h_2 =>
        split at fetched
        case h_1 => simp at fetched
        case h_2 answer requested =>
          split at fetched
          case h_1 served status body =>
            split at fetched
            case h_1 =>
              obtain rfl : served = document := by simpa using fetched
              exact .inr ⟨answer, requested, status, body⟩
            case h_2 => simp at fetched
          case h_2 => simp at fetched

theorem fetchActorDocument_written
    (written : (fetchActorDocument answers keyId).2 = some document) :
    ∃ answer, answers.request (beforeHash keyId) = .ok answer ∧ answer.statusCode = 200 ∧
      answer.json = .ok document := by
  simp only [fetchActorDocument] at written
  split at written
  case isTrue => simp at written
  case isFalse =>
    split at written
    case h_1 => simp at written
    case h_2 =>
      split at written
      case h_1 => simp at written
      case h_2 =>
        split at written
        case h_1 => simp at written
        case h_2 answer requested =>
          split at written
          case h_1 served status body =>
            split at written
            case h_1 =>
              obtain rfl : served = document := by simpa using written
              exact ⟨answer, requested, status, body⟩
            case h_2 => simp at written
          case h_2 => simp at written

theorem fetchActorDocument_congr {answers' : Answers}
    (cached : answers.getCachedActorDoc (beforeHash keyId) =
      answers'.getCachedActorDoc (beforeHash keyId))
    (requested : answers.request (beforeHash keyId) = answers'.request (beforeHash keyId))
    (write : answers.cacheActorDoc = answers'.cacheActorDoc) :
    fetchActorDocument answers keyId = fetchActorDocument answers' keyId := by
  simp only [fetchActorDocument, cached, requested, write]

theorem cacheOf_append (steps : List Step) (step : Step) :
    cacheOf (steps ++ [step]) = step.cacheAfter (cacheOf steps) := by
  simp [cacheOf]

theorem Served.append {steps : List Step} {url : String}
    (served : Served steps url document) (step : Step) : Served (steps ++ [step]) url document := by
  obtain ⟨earlier, listed, answered⟩ := served
  exact ⟨earlier, List.mem_append_left _ listed, answered⟩

theorem served_of_cached {steps : List Step} {url : String}
    (cached : cacheOf steps url = some document) : Served steps url document := by
  induction steps using List.reverseRecOn with
  | nil => simp [cacheOf] at cached
  | append_singleton earlier step ih =>
    rw [cacheOf_append] at cached
    simp only [Step.cacheAfter] at cached
    cases read : step.params with
    | none =>
      rw [read] at cached
      exact (ih cached).append step
    | some params =>
      simp only [read] at cached
      split at cached
      case isTrue same =>
        rcases Option.or_eq_some_iff.mp cached with written | ⟨-, before⟩
        · obtain ⟨answer, requested, status, body⟩ := fetchActorDocument_written written
          exact ⟨step, List.mem_append_right _ List.mem_cons_self, answer, same ▸ requested, status,
            body⟩
        · exact (ih before).append step
      case isFalse => exact (ih cached).append step

section
variable {crypto : Crypto} {envelope : InboundEnvelope}

theorem verifySignature_valid {answers : Answers} {actorUri : String}
    (valid : verifySignature crypto answers envelope = .valid actorUri) :
    ∃ params document pem, (envelope.setHeader "signature").bind signatureParams = some params ∧
      (fetchActorDocument answers params.keyId).1 = .ok (some document) ∧
      extractPublicKeyPemFromVerificationDocument document = some pem ∧
      crypto.verify pem (buildSigningString envelope params.names) params.signature = .ok true ∧
      resolveActorUriFromVerificationDocument params.keyId document = some actorUri := by
  simp only [verifySignature] at valid
  split at valid
  case h_1 => simp at valid
  case h_2 header sent =>
    split at valid
    case h_1 => simp at valid
    case h_2 params parsed =>
      split at valid
      case h_1 => simp at valid
      case h_2 fetched answered =>
        split at valid
        case h_1 => simp at valid
        case h_2 document present =>
          obtain ⟨rfl, -⟩ := Option.filter_eq_some_iff.mp present
          simp only [verifyWithDocument] at valid
          split at valid
          case h_1 => simp at valid
          case h_2 pem key =>
            split at valid
            case isTrue => simp at valid
            case isFalse =>
              split at valid
              case h_1 => simp at valid
              case h_2 => simp at valid
              case h_3 verified =>
                split at valid
                case h_1 => simp at valid
                case h_2 resolved actor =>
                  split at valid
                  case isTrue => simp at valid
                  case isFalse =>
                    obtain rfl : resolved = actorUri := by simpa using valid
                    exact ⟨params, document, pem, by simp [sent, parsed], answered, key, verified,
                      actor⟩

theorem verifySignature_congr {answers answers' : Answers} {params : SignatureParams}
    (read : (envelope.setHeader "signature").bind signatureParams = some params)
    (same : fetchActorDocument answers params.keyId = fetchActorDocument answers' params.keyId) :
    verifySignature crypto answers envelope = verifySignature crypto answers' envelope := by
  obtain ⟨header, sent, parsed⟩ := Option.bind_eq_some_iff.mp read
  simp only [verifySignature, sent, parsed, same]

structure DiffersElsewhere (origin : String → Option String) (actorUri : String)
    (step step' : Step) : Prop where
  envelope : step.envelope = step'.envelope
  expired : step.expired = step'.expired
  readFails : step.readFails = step'.readFails
  cacheActorDoc : step.cacheActorDoc = step'.cacheActorDoc
  network : ∀ url, origin url = origin actorUri → step.network url = step'.network url

variable {origin : String → Option String} {actorUri : String}

theorem DiffersElsewhere.fetch {step step' : Step} {cache cache' : Cache} {keyId : String}
    (differs : DiffersElsewhere origin actorUri step step')
    (inside : origin (beforeHash keyId) = origin actorUri)
    (same : cache (beforeHash keyId) = cache' (beforeHash keyId)) :
    fetchActorDocument (step.answers cache) keyId =
      fetchActorDocument (step'.answers cache') keyId := by
  apply fetchActorDocument_congr
  · simp only [Step.answers, differs.readFails, differs.expired, same]
  · exact differs.network _ inside
  · exact differs.cacheActorDoc

theorem DiffersElsewhere.cacheAfter {step step' : Step} {cache cache' : Cache}
    (differs : DiffersElsewhere origin actorUri step step')
    (same : ∀ url, origin url = origin actorUri → cache url = cache' url) :
    ∀ url, origin url = origin actorUri → step.cacheAfter cache url = step'.cacheAfter cache' url := by
  intro url inside
  have params : step.params = step'.params := by rw [Step.params, Step.params, differs.envelope]
  simp only [Step.cacheAfter, params]
  cases step'.params with
  | none => exact same url inside
  | some found =>
    by_cases own : url = beforeHash found.keyId
    · simp only [if_pos own, same url inside,
        differs.fetch (own ▸ inside) (same _ (own ▸ inside))]
    · simp only [if_neg own, same url inside]

theorem cacheOf_differs {earlier earlier' : List Step}
    (runs : List.Forall₂ (DiffersElsewhere origin actorUri) earlier earlier') :
    ∀ url, origin url = origin actorUri → cacheOf earlier url = cacheOf earlier' url := by
  have from' : ∀ cache cache' : Cache,
      (∀ url, origin url = origin actorUri → cache url = cache' url) →
        ∀ url, origin url = origin actorUri →
          earlier.foldl (fun cache step => step.cacheAfter cache) cache url =
            earlier'.foldl (fun cache step => step.cacheAfter cache) cache' url := by
    induction runs with
    | nil => exact fun cache cache' same => same
    | cons differs _ ih => exact fun cache cache' same => ih _ _ (differs.cacheAfter same)
  exact from' _ _ fun _ _ => rfl

/-- The key of a verified envelope was served by its own URL. It comes from the actor's
origin exactly where its document names no actor of another origin, and then the envelope
is verified whatever the other origins serve. -/
structure Vouched (crypto : Crypto) (origin : String → Option String) (earlier : List Step)
    (step : Step) (actorUri : String) (params : SignatureParams) (document : Json) (pem : String) :
    Prop where
  read : step.params = some params
  served : Served (earlier ++ [step]) (beforeHash params.keyId) document
  key : extractPublicKeyPemFromVerificationDocument document = some pem
  verified : crypto.verify pem (buildSigningString step.envelope params.names) params.signature =
    .ok true
  own : origin actorUri = origin (beforeHash params.keyId) ↔
    NamesOwnOrigin origin (beforeHash params.keyId) document
  alone : NamesOwnOrigin origin (beforeHash params.keyId) document → ∀ earlier' step',
    List.Forall₂ (DiffersElsewhere origin actorUri) earlier earlier' →
      DiffersElsewhere origin actorUri step step' →
        result crypto earlier' step' = .valid actorUri

theorem vouched_iff {earlier : List Step} {step : Step}
    (valid : result crypto earlier step = .valid actorUri) :
    ∃ params document pem, Vouched crypto origin earlier step actorUri params document pem := by
  obtain ⟨params, document, pem, read, fetched, key, verified, resolved⟩ :=
    verifySignature_valid valid
  have served : Served (earlier ++ [step]) (beforeHash params.keyId) document := by
    rcases fetchActorDocument_ok fetched with cached | ⟨answer, requested, status, body⟩
    · simp only [Step.answers] at cached
      split at cached
      case h_1 => simp at cached
      case h_2 =>
        split at cached
        case isTrue => simp at cached
        case isFalse => exact (served_of_cached (Except.ok.inj cached)).append step
    · exact ⟨step, List.mem_append_right _ List.mem_cons_self, answer, requested, status, body⟩
  have own : origin actorUri = origin (beforeHash params.keyId) ↔
      NamesOwnOrigin origin (beforeHash params.keyId) document := by
    simp only [resolveActorUriFromVerificationDocument] at resolved
    split at resolved
    case h_1 named found =>
      obtain rfl : named = actorUri := by simpa using resolved
      constructor
      · intro same other names
        obtain rfl := Option.some.inj ((namedActor_iff.mpr names).symm.trans found)
        exact same
      · exact fun ownOrigin => ownOrigin named (namedActor_iff.mp found)
    case h_2 unnamed =>
      split at resolved
      case isTrue =>
        obtain rfl : beforeHash params.keyId = actorUri := by simpa using resolved
        refine iff_of_true rfl fun other names => ?_
        simp [namedActor_iff.mpr names] at unnamed
      case isFalse => simp at resolved
  refine ⟨params, document, pem, read, served, key, verified, own, ?_⟩
  intro named earlier' step' runs differs
  have inside := (own.mpr named).symm
  have fetch := differs.fetch inside (cacheOf_differs runs _ inside)
  rw [result, ← differs.envelope, ← verifySignature_congr read fetch]
  exact valid

end

def spelledKey : Crypto where
  sha256 body := String.ofList (body.map fun byte => Char.ofNat byte.toNat)
  verify publicKeyPem message signature := .ok (signature = publicKeyPem ++ message)

def originOf (url : String) : Option String :=
  some ("/".intercalate ((split '/' url).take 3))

def keyDocument (owner : List (String × Json)) : Json :=
  .obj (("publicKeyPem", .str "PEM") :: owner)

def signedEnvelope : InboundEnvelope where
  envelopeId := "1"
  method := "POST"
  path := "/inbox"
  headers := [("date", "D"), ("signature",
    "keyId=\x22https://m.example/k\x22,headers=\x22date\x22,signature=\x22PEMdate: D\x22")]
  body := "\x7b\x7d"
  remoteIp := "192.0.2.1"
  receivedAt := 0
  attempt := 0
  notBeforeMs := 0
  verification := none

def servedBy (owner : List (String × Json)) : Step where
  envelope := signedEnvelope
  network url :=
    if url = "https://m.example/k" then .ok ⟨200, .ok (keyDocument owner)⟩ else .error "getaddrinfo"
  expired _ := false
  readFails _ := none
  cacheActorDoc := .ok ()

def namesAlice : List (String × Json) := [("owner", .str "https://a.example/alice")]

theorem servedBy_differs (owner owner' : List (String × Json)) :
    DiffersElsewhere originOf "https://a.example/alice" (servedBy owner) (servedBy owner') where
  envelope := rfl
  expired := rfl
  readFails := rfl
  cacheActorDoc := rfl
  network := by
    intro url inside
    have other : url ≠ "https://m.example/k" := by
      rintro rfl
      exact absurd inside (by decide +kernel)
    simp [servedBy, other]

/-- A document of m.example that names an owner at a.example turns a rejected envelope into
one that is accepted as that owner. -/
theorem owner_elsewhere_accepted :
    result spelledKey [] (servedBy []) = .invalid "Could not resolve actor owner for keyId" ∧
      result spelledKey [] (servedBy namesAlice) = .valid "https://a.example/alice" ∧
      originOf "https://m.example/k" ≠ originOf "https://a.example/alice" ∧
      DiffersElsewhere originOf "https://a.example/alice" (servedBy []) (servedBy namesAlice) :=
  ⟨by decide +kernel, by decide +kernel, by decide +kernel, servedBy_differs _ _⟩

theorem mallory_vouched : ∃ params document pem, Vouched spelledKey originOf []
    (servedBy [("owner", .str "https://m.example/mallory")]) "https://m.example/mallory" params
      document pem :=
  vouched_iff (by decide +kernel)

end MastopodFederation.Guarantees.ActorVouching
