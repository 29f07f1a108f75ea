import MastopodFederation.Source.AtIngressVerifier

/-!
# Whose DID a trusted commit event carries

`verifyCommit` checks the signature of `body.repo`, while `handleRawEvent` attributes
the events, the relevance check and a rebuild to the first DID it finds in the
header, the body or the envelope. A relay writes the header and every body field,
so the two agree exactly when the selected DID is `body.repo`.
-/
namespace MastopodFederation.Guarantees.CommitAttribution
open Lib.Logged.Logged Source.Cbor Source.AtIngressVerifier

variable {services : Services} {envelope : AtFirehoseRawEnvelope}

def Fresh (services : Services) (envelope : AtFirehoseRawEnvelope) (header body : Cbor) : Prop :=
  services.isDuplicate envelope.source envelope.seq = .ok false ∧
    decode services envelope = .ok (header, body)

def Accepts (services : Services) (body : Cbor) : Prop :=
  ∃ result, services.verifyCommit body = .ok result ∧ result.isValid = true

def commitType : Cbor := .text "#commit"

/-- What a call made for a frame says about the frame: trusted commit events and
rebuilds of commit frames follow a verified body, and everything that carries a
DID carries the selected one. -/
def Warranted (services : Services) (envelope : AtFirehoseRawEnvelope) : Effect → Prop
  | .publish event => event.eventType = .commit → ∃ header body,
      Fresh services envelope header body ∧ eventTypeOf envelope header = commitType ∧
        selectDid envelope header body = some event.did ∧ truthy (some event.did) = true ∧
        Accepts services body
  | .rebuildRepo did _ => ∃ header body, Fresh services envelope header body ∧
      selectDid envelope header body = some did ∧ truthy (some did) = true ∧
      (eventTypeOf envelope header = commitType → Accepts services body)
  | .isRelevantDid did => ∃ header body, Fresh services envelope header body ∧
      selectDid envelope header body = some did ∧ truthy (some did) = true
  | _ => True

theorem publishFailure_warranted (reason : FailureReason) (details : List (String × Option Cbor)) :
    Emits (Warranted services envelope) (publishFailure services envelope reason details) :=
  emits_reply trivial

theorem markProcessed_warranted :
    Emits (Warranted services envelope) (markProcessed services envelope) :=
  emits_reply trivial

theorem suppressedAsSpam_warranted (did : Cbor) (op : VerifiedOp) :
    Emits (Warranted services envelope) (suppressedAsSpam services did op) := by
  unfold suppressedAsSpam
  split
  · exact emits_pure _
  · split
    · refine emits_bind (emits_ofExcept _) fun built _ => ?_
      split
      · refine emits_bind (emits_attempt (emits_reply trivial)) fun verdict _ => ?_
        split <;> exact emits_pure _
      · exact emits_pure _
    · exact emits_pure _

variable {header body : Cbor}

theorem handleCommit_warranted (fresh : Fresh services envelope header body)
    (type : eventTypeOf envelope header = commitType) : Emits (Warranted services envelope)
      (handleCommit services envelope (selectDid envelope header body) body) := by
  unfold handleCommit
  split
  next did selected =>
    split
    next present =>
      refine emits_bind (emits_reply trivial) fun result verified => ?_
      split
      · exact publishFailure_warranted _ _
      next valid =>
        have accepted : Accepts services body := ⟨result, verified, by simpa using valid⟩
        split
        · refine emits_bind (emits_reply ?_) fun rebuilt _ => ?_
          · exact ⟨header, body, fresh, selected, selected ▸ present, fun _ => accepted⟩
          · split
            · exact publishFailure_warranted _ _
            · exact emits_pure _
        · split
          · exact emits_pure _
          · refine emits_forM _ fun op _ => ?_
            refine emits_bind (suppressedAsSpam_warranted did op) fun suppressed _ => ?_
            split
            · exact emits_pure _
            · exact emits_reply fun _ =>
                ⟨header, body, fresh, type, selected, selected ▸ present, accepted⟩
    · exact publishFailure_warranted _ _
  · exact publishFailure_warranted _ _

theorem handleIdentity_warranted (did : Option Cbor) :
    Emits (Warranted services envelope) (handleIdentity services envelope did) := by
  unfold handleIdentity
  split
  · split
    · refine emits_bind (emits_reply trivial) fun result _ => ?_
      split
      · exact emits_reply nofun
      · exact publishFailure_warranted _ _
    · exact publishFailure_warranted _ _
  · exact publishFailure_warranted _ _

theorem handleAccount_warranted (did : Option Cbor) (body : Cbor) :
    Emits (Warranted services envelope) (handleAccount services envelope did body) := by
  unfold handleAccount
  split
  · split
    · exact emits_reply nofun
    · exact publishFailure_warranted _ _
  · exact publishFailure_warranted _ _

theorem handleSync_warranted (fresh : Fresh services envelope header body)
    (type : eventTypeOf envelope header ≠ commitType) : Emits (Warranted services envelope)
      (handleSync services envelope (selectDid envelope header body)) := by
  unfold handleSync
  split
  next did selected =>
    split
    next present =>
      refine emits_bind (emits_reply ?_) fun result _ => ?_
      · exact ⟨header, body, fresh, selected, selected ▸ present, fun h => absurd h type⟩
      · split
        · exact publishFailure_warranted _ _
        · exact emits_pure _
    · exact publishFailure_warranted _ _
  · exact publishFailure_warranted _ _

theorem route_warranted (fresh : Fresh services envelope header body) :
    Emits (Warranted services envelope) (route services envelope (selectDid envelope header body)
      body (eventTypeOf envelope header)) := by
  unfold route
  split
  next type => exact handleCommit_warranted fresh type
  next => exact handleIdentity_warranted _
  next => exact handleAccount_warranted _ _
  next type => exact handleSync_warranted fresh (by simp [type, commitType])
  next => exact emits_pure _
  next => exact publishFailure_warranted _ _

theorem isRelevant_warranted (fresh : Fresh services envelope header body) :
    Emits (Warranted services envelope) (isRelevant services (selectDid envelope header body)) := by
  unfold isRelevant
  split
  next did selected =>
    split
    next present => exact emits_reply ⟨header, body, fresh, selected, selected ▸ present⟩
    · exact emits_pure _
  · exact emits_pure _

theorem handleRawEvent_warranted :
    Emits (Warranted services envelope) (handleRawEvent services envelope) := by
  have frame : Emits (Warranted services envelope) (handleFrame services envelope) := by
    refine emits_bind (emits_reply trivial) fun duplicate answered => ?_
    split
    · exact emits_bind (publishFailure_warranted _ _) fun _ _ => emits_pure _
    next new =>
      split
      · exact emits_bind (publishFailure_warranted _ _) fun _ _ => emits_pure _
      next header body decoded =>
        have fresh : Fresh services envelope header body :=
          ⟨by simpa [new] using answered, decoded⟩
        refine emits_bind (isRelevant_warranted fresh) fun relevant _ => ?_
        split
        · exact emits_bind markProcessed_warranted fun _ _ => emits_pure _
        · refine emits_bind (route_warranted fresh) fun _ _ => ?_
          exact emits_bind markProcessed_warranted fun _ _ => emits_pure _
  refine emits_bind (emits_attempt frame) fun outcome _ => ?_
  split <;> exact emits_pure _

theorem isRelevantDid_asked {did : Cbor} (fresh : Fresh services envelope header body)
    (selected : selectDid envelope header body = some did) (present : truthy (some did) = true) :
    .isRelevantDid did ∈ (handleRawEvent services envelope).log := by
  have asked : .isRelevantDid did ∈ (isRelevant services (selectDid envelope header body)).log := by
    simp [isRelevant, selected, present]
  have decoded : .isRelevantDid did ∈ (handleDecoded services envelope header body).log :=
    mem_log_bind.mpr (.inl asked)
  have frame : .isRelevantDid did ∈ (handleFrame services envelope).log := by
    refine mem_log_bind.mpr (.inr ⟨false, fresh.1, ?_⟩)
    simpa [fresh.2] using decoded
  exact mem_log_bind.mpr (.inl frame)

/-- Trusted commit events carry `body.repo`, the DID that signed, and so do the
relevance check and the rebuild of a commit frame. -/
structure AttributedToSigner (signedBy : Cbor → Cbor → Prop) (services : Services)
    (envelope : AtFirehoseRawEnvelope) : Prop where
  published : ∀ event, .publish event ∈ (handleRawEvent services envelope).log →
    event.eventType = .commit → ∃ header body, decode services envelope = .ok (header, body) ∧
      body.get "repo" = some event.did ∧ signedBy event.did body
  rebuilt : ∀ header body, decode services envelope = .ok (header, body) →
    eventTypeOf envelope header = commitType →
    ∀ did source, .rebuildRepo did source ∈ (handleRawEvent services envelope).log →
      body.get "repo" = some did ∧ signedBy did body
  relevance : ∀ header body, decode services envelope = .ok (header, body) →
    eventTypeOf envelope header = commitType →
    ∀ did, .isRelevantDid did ∈ (handleRawEvent services envelope).log →
      nullish (body.get "repo") = false → body.get "repo" = some did

def VerifiesSigner (signedBy : Cbor → Cbor → Prop) (services : Services) : Prop :=
  ∀ body, Accepts services body → nullish (body.get "repo") = false ∧
    ∀ repo, body.get "repo" = some repo → signedBy repo body

def SelectsRepo (services : Services) (envelope : AtFirehoseRawEnvelope) : Prop :=
  ∀ header body, Fresh services envelope header body → eventTypeOf envelope header = commitType →
    nullish (body.get "repo") = false → truthy (selectDid envelope header body) = true →
    selectDid envelope header body = body.get "repo"

/-- For a verifier that accepts a body only when `body.repo` signed it, a frame is
attributed to its signer exactly when the DID it selects is `body.repo`. -/
theorem attributed_iff_selects_repo (signedBy : Cbor → Cbor → Prop) (services : Services)
    (envelope : AtFirehoseRawEnvelope)
    (sound : VerifiesSigner signedBy services) :
    AttributedToSigner signedBy services envelope ↔ SelectsRepo services envelope := by
  constructor
  · intro attributed header body fresh type named present
    cases selected : selectDid envelope header body with
    | none => simp [selected, truthy] at present
    | some did =>
      exact (attributed.relevance header body fresh.2 type did
        (isRelevantDid_asked fresh selected (selected ▸ present)) named).symm
  · intro selects
    refine ⟨fun event mem commit => ?_, fun header body decoded type did source mem => ?_,
      fun header body decoded type did mem named => ?_⟩
    · obtain ⟨header, body, fresh, type, selected, present, accepted⟩ :=
        handleRawEvent_warranted _ mem commit
      obtain ⟨named, signed⟩ := sound body accepted
      have same := (selects header body fresh type named (selected ▸ present)).symm.trans selected
      exact ⟨header, body, fresh.2, same, signed _ same⟩
    · obtain ⟨header', body', fresh, selected, present, accepts⟩ := handleRawEvent_warranted _ mem
      have pair := decoded.symm.trans fresh.2
      cases pair
      obtain ⟨named, signed⟩ := sound body (accepts type)
      have same := (selects header body fresh type named (selected ▸ present)).symm.trans selected
      exact ⟨same, signed _ same⟩
    · obtain ⟨header', body', fresh, selected, present⟩ := handleRawEvent_warranted _ mem
      have pair := decoded.symm.trans fresh.2
      cases pair
      exact (selects header body fresh type named (selected ▸ present)).symm.trans selected

def honestHeader : Cbor := .map [("t", commitType), ("op", .number 1)]

def forgedHeader : Cbor :=
  .map [("t", commitType), ("op", .number 1), ("did", .text "did:plc:bob")]

def eveBody : Cbor := .map [("rev", .text "3l4xqw2a2s22a"), ("repo", .text "did:plc:eve")]

def honestHeaderBytes : Frame :=
  [162, 97, 116, 103, 35, 99, 111, 109, 109, 105, 116, 98, 111, 112, 1]

def forgedHeaderBytes : Frame :=
  [163, 97, 116, 103, 35, 99, 111, 109, 109, 105, 116, 98, 111, 112, 1,
    99, 100, 105, 100, 107, 100, 105, 100, 58, 112, 108, 99, 58, 98, 111, 98]

def eveBodyBytes : Frame :=
  [162, 99, 114, 101, 118, 109, 51, 108, 52, 120, 113, 119, 50, 97, 50, 115, 50, 50, 97,
    100, 114, 101, 112, 111, 107, 100, 105, 100, 58, 112, 108, 99, 58, 101, 118, 101]

def readSample (frame : Frame) : Option (Cbor × Frame) :=
  if frame = forgedHeaderBytes ++ eveBodyBytes then some (forgedHeader, eveBodyBytes)
  else if frame = honestHeaderBytes ++ eveBodyBytes then some (honestHeader, eveBodyBytes)
  else if frame = eveBodyBytes then some (eveBody, [])
  else none

def honestBase64 : String := "omF0ZyNjb21taXRib3ABomNyZXZtM2w0eHF3MmEyczIyYWRyZXBva2RpZDpwbGM6ZXZl"

def forgedBase64 : String :=
  "o2F0ZyNjb21taXRib3ABY2RpZGtkaWQ6cGxjOmJvYqJjcmV2bTNsNHhxdzJhMnMyMmFkcmVwb2tkaWQ6cGxjOmV2ZQ=="

def createdPost : VerifiedOp :=
  ⟨.create, "app.bsky.feed.post", "3l4xqw2a2s22a", some "bafyrecord", some (.map [])⟩

def isEve (body : Cbor) : Bool :=
  match body.get "repo" with
  | some (.text did) => did == "did:plc:eve"
  | _ => false

def permissive : Services where
  decodeCborFirst := readSample
  fromBase64 text :=
    if text = forgedBase64 then forgedHeaderBytes ++ eveBodyBytes
    else if text = honestBase64 then honestHeaderBytes ++ eveBodyBytes
    else []
  isDuplicate _ _ := .ok false
  isRelevantDid _ := .ok true
  markProcessed _ _ := .ok ()
  verifyCommit body := .ok
    { isValid := isEve body, requiresSync := false, failureReason := none, reason := none
      ops := some [createdPost] }
  rebuildRepo _ _ := .ok ⟨true, none⟩
  resolveIdentity _ := .ok ⟨false, none, none, none⟩
  buildEnvelopeFromAT _ _ := .ok true
  spamEvaluator := none
  publish _ := .ok ()
  publishVerifyFailed _ := .ok ()

def signedByEve (repo _body : Cbor) : Prop := repo = .text "did:plc:eve"

theorem permissive_verifiesSigner : VerifiesSigner signedByEve permissive := by
  rintro body ⟨result, verified, valid⟩
  cases verified
  simp only [isEve] at valid
  split at valid
  next did named =>
    rw [beq_iff_eq] at valid
    simp [named, nullish, signedByEve, valid]
  · cases valid

def envelopeOf (rawCborBase64 : String) : AtFirehoseRawEnvelope :=
  ⟨1, "wss://relay.example", .commit, some "did:plc:eve", rawCborBase64⟩

theorem honest_decodes : decode permissive (envelopeOf honestBase64) = .ok (honestHeader, eveBody) := by
  rfl

theorem forged_decodes : decode permissive (envelopeOf forgedBase64) = .ok (forgedHeader, eveBody) := by
  rfl

theorem attributed_iff_selects_repo_honest :
    AttributedToSigner signedByEve permissive (envelopeOf honestBase64) := by
  refine (attributed_iff_selects_repo signedByEve permissive _ permissive_verifiesSigner).mpr ?_
  intro header body fresh _ _ _
  have pair := fresh.2.symm.trans honest_decodes
  cases pair
  rfl

/-- Eve signs a commit and the relay writes another DID into the header: the
trusted event is published under that other DID. -/
theorem forged_header_misattributed :
    ¬ ∀ (signedBy : Cbor → Cbor → Prop) (services : Services) (envelope : AtFirehoseRawEnvelope),
      VerifiesSigner signedBy services → AttributedToSigner signedBy services envelope := by
  intro claimed
  have attributed := claimed signedByEve permissive (envelopeOf forgedBase64)
    permissive_verifiesSigner
  let forged : AtIngressEvent := ⟨1, .text "did:plc:bob", "wss://relay.example",
    .commit (some (.text "3l4xqw2a2s22a")) createdPost true⟩
  have published : .publish forged ∈ (handleRawEvent permissive (envelopeOf forgedBase64)).log := by
    have log : (handleRawEvent permissive (envelopeOf forgedBase64)).log =
        [.isDuplicate "wss://relay.example" 1, .isRelevantDid (.text "did:plc:bob"),
          .verifyCommit eveBody, .publish forged, .markProcessed "wss://relay.example" 1] := rfl
    rw [log]
    simp
  obtain ⟨header, body, decoded, repo, _⟩ := attributed.published forged published rfl
  have pair := decoded.symm.trans forged_decodes
  cases pair
  exact absurd repo (by simp [eveBody, forged, Cbor.get, List.lookup])

end MastopodFederation.Guarantees.CommitAttribution
