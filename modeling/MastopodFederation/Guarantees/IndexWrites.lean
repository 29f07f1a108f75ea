import MastopodFederation.Source.PublicContentIndexWriter

/-!
# What an undisturbed upsert writes

With every command answered an upsert is a function of the index: it picks the id of a document,
writes it unless a remote duplicate is left alone, and publishes the aliases of the event.
-/
namespace MastopodFederation.Guarantees.IndexWrites
open Lib.ServedCalls Source.PublicContentIndexWriter

variable {time : String → Option Int} {x y : Index} {event : SearchPublicUpsertV1} {id : String}

def named (held : String → Option String) (key : Option String) : Option String :=
  key.bind fun key => filled (held key)

def targetOf (x : Index) (event : SearchPublicUpsertV1) : String :=
  match event.canonicalId with
  | some canonicalId => (named x.byCanonicalId (some canonicalId)).getD canonicalId
  | none => (named x.byApUri event.apUri).getD ((named x.byAtUri event.atUri).getD event.stableDocId)

def boundIf (held : String → Option String) (key : Option String) (id : String) :
    String → Option String :=
  key.elim held fun key => bound held key id

def published (x : Index) (event : SearchPublicUpsertV1) (id : String) : Index :=
  { x with
    byCanonicalId := boundIf x.byCanonicalId event.canonicalId id
    byApUri := boundIf x.byApUri event.apUri id
    byAtUri := boundIf x.byAtUri event.atUri id }

variable (time) in
def upserted (x : Index) (event : SearchPublicUpsertV1) : Index :=
  let id := targetOf x event
  if event.upsertKind = .part then x
  else if skips time event (x.docs id) then published x event id
  else published (x.upsert id (buildDocument event id (x.docs id))) event id

inductive Alias where
  | canonicalId | apUri | atUri

namespace Alias

def held : Alias → Index → String → Option String
  | .canonicalId => Index.byCanonicalId
  | .apUri => Index.byApUri
  | .atUri => Index.byAtUri

def key : Alias → SearchPublicUpsertV1 → Option String
  | .canonicalId => SearchPublicUpsertV1.canonicalId
  | .apUri => SearchPublicUpsertV1.apUri
  | .atUri => SearchPublicUpsertV1.atUri

theorem held_published (a : Alias) :
    a.held (published x event id) = boundIf (a.held x) (a.key event) id := by
  cases a <;> rfl

theorem held_upsert (a : Alias) {doc : PublicContentDocument} :
    a.held (x.upsert id doc) = a.held x := by
  cases a <;> rfl

theorem held_upserted (a : Alias) (full : event.upsertKind ≠ .part) :
    a.held (upserted time x event) = boundIf (a.held x) (a.key event) (targetOf x event) := by
  unfold upserted
  rw [if_neg full]
  split
  · rw [held_published]
  · rw [held_published, held_upsert]

end Alias

theorem targetOf_canonical {canonicalId : String} (known : event.canonicalId = some canonicalId) :
    targetOf x event =
      (named (Alias.canonicalId.held x) (some canonicalId)).getD canonicalId := by
  unfold targetOf
  rw [known]
  rfl

theorem targetOf_uris (unknown : event.canonicalId = none) :
    targetOf x event = (named (Alias.apUri.held x) event.apUri).getD
      ((named (Alias.atUri.held x) event.atUri).getD event.stableDocId) := by
  unfold targetOf
  rw [unknown]
  rfl

theorem upserted_part (part : event.upsertKind = .part) : upserted time x event = x := by
  unfold upserted
  rw [if_pos part]

theorem docs_upserted (ne : targetOf x event ≠ id) :
    (upserted time x event).docs id = x.docs id := by
  unfold upserted
  simp only []
  split
  · rfl
  split
  · rfl
  · simp [published, Index.upsert, bound, ne.symm]

section Runs

theorem run_lookup {asked : Run (Option String)} {otherwise : Run String} {found : Option String}
    (answered : service.run undisturbed asked x = (.ok found, x)) :
    service.run undisturbed (lookup asked otherwise) x =
      (filled found).elim (service.run undisturbed otherwise x) fun cached => (.ok cached, x) := by
  unfold lookup
  rw [run_bind_ok answered]
  cases filled found with
  | none => rfl
  | some cached => rfl

theorem run_resolveByAtUri : service.run undisturbed (resolveByAtUri event) x =
    (.ok ((named x.byAtUri event.atUri).getD event.stableDocId), x) := by
  unfold resolveByAtUri
  cases event.atUri with
  | none => rfl
  | some uri =>
    have asked : service.run undisturbed
        (lookup (.call (.getByAtUri uri) replied) (pure event.stableDocId)) x =
        (filled (x.byAtUri uri)).elim (service.run undisturbed (pure event.stableDocId) x)
          fun cached => (.ok cached, x) := run_lookup rfl
    simp only [asked, named, Option.bind_some]
    cases filled (x.byAtUri uri) with
    | none => rfl
    | some cached => rfl

theorem run_resolve : service.run undisturbed (resolveStableDocId event) x =
    (.ok (targetOf x event), x) := by
  unfold resolveStableDocId targetOf
  cases event.canonicalId with
  | some canonicalId =>
    simp only [named, Option.bind_some]
    rw [run_lookup rfl]
    cases filled (x.byCanonicalId canonicalId) with
    | none => rfl
    | some cached => rfl
  | none =>
    simp only []
    cases event.apUri with
    | none => exact run_resolveByAtUri
    | some uri =>
      simp only [named, Option.bind_some]
      rw [run_lookup rfl, run_resolveByAtUri]
      cases filled (x.byApUri uri) with
      | none => rfl
      | some cached => rfl

theorem run_publishAliases : service.run undisturbed (publishAliases event id) x =
    (.ok (), published x event id) := by
  unfold publishAliases published
  cases event.canonicalId <;> cases event.apUri <;> cases event.atUri <;> rfl

theorem run_get (nonempty : id ≠ "") :
    service.run undisturbed (.call (.get id) replied) x = (.ok (x.docs id), x) := by
  have answered : service.answer x (.get id) = (some (x.docs id), x) := by
    simp [service, Index.answer, Index.onIds, nonempty.symm]
  simp only [Service.run, undisturbed, Service.suffer, answered]
  rfl

theorem run_get_empty :
    service.run undisturbed (.call (.get "") replied) x = (.error .command, x) := rfl

theorem run_upsert {doc : PublicContentDocument} (nonempty : id ≠ "") :
    service.run undisturbed (.call (.upsert id doc) replied) x = (.ok (), x.upsert id doc) := by
  have answered : service.answer x (.upsert id doc) = (some (), x.upsert id doc) := by
    simp [service, Index.answer, Index.onIds, nonempty.symm]
  simp only [Service.run, undisturbed, Service.suffer, answered]
  rfl

theorem run_onUpsert (fits : event.upsertKind = .part ∨ targetOf x event ≠ "") :
    service.run undisturbed (onUpsert time event) x = (.ok (), upserted time x event) := by
  unfold onUpsert upserted
  by_cases part : event.upsertKind = .part
  · rw [if_pos part, if_pos part]
    rfl
  · have nonempty := fits.resolve_left part
    rw [if_neg part, if_neg part, run_bind_ok run_resolve, run_bind_ok (run_get nonempty)]
    cases skips time event (x.docs (targetOf x event)) with
    | true => exact run_publishAliases
    | false =>
      exact (run_bind_ok (run_upsert nonempty)).trans run_publishAliases

theorem run_onUpsert_empty (full : event.upsertKind ≠ .part) (empty : targetOf x event = "") :
    service.run undisturbed (onUpsert time event) x = (.error .command, x) := by
  unfold onUpsert
  rw [if_neg full, run_bind_ok run_resolve, empty, run_bind_error run_get_empty]

theorem gives_onUpsert : Gives service (onUpsert time event) x () y ↔
    (event.upsertKind = .part ∨ targetOf x event ≠ "") ∧ y = upserted time x event := by
  unfold Gives
  by_cases fits : event.upsertKind = .part ∨ targetOf x event ≠ ""
  · rw [run_onUpsert fits]
    constructor
    · intro ran
      exact ⟨fits, (Prod.mk.inj ran).2.symm⟩
    · intro ⟨_, same⟩
      rw [same]
  · rw [not_or, not_not] at fits
    rw [run_onUpsert_empty fits.1 fits.2]
    simp [fits]

end Runs

end MastopodFederation.Guarantees.IndexWrites
