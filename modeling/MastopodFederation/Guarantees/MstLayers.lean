import MastopodFederation.Guarantees.MstShape

/-!
# The layer a node computes for itself

`getLayer` takes the cached layer, the rank of the first leaf, or one more than the layer of the
first child that has one, and caches what it asked for. A discipline is a node property that the
caches and the new nodes of the tree methods keep; under it, asking for the layer changes
nothing that a tree holds.
-/
namespace MastopodFederation.Guarantees.MstLayers
open Source.Cbor Source.CommitEvent Source.Mst Lib.LayeredEntries Lib.SortedMap
open MstShape Lib.Logged.Logged

variable {store : NodeStore} {layer : Int} {t : PartialMst} {fuel : Nat}

def LayerSound (store : NodeStore) (layer : Int) (t : PartialMst) : Prop :=
  ∀ fuel answer, (t.getLayer store fuel).result = .ok answer → answer.1 = layer

section Result

theorem getLayer_ok {answer : Int × PartialMst} :
    (t.getLayer store fuel).result = .ok answer ↔
      ∃ found asked, (t.attemptGetLayer store fuel).result = .ok (found, asked) ∧
        answer = (found.getD 0, { asked with layer := some (found.getD 0) }) := by
  unfold PartialMst.getLayer
  rw [bind_ok]
  constructor
  · rintro ⟨⟨found, asked⟩, attempted, returned⟩
    exact ⟨found, asked, attempted, by simpa using returned.symm⟩
  · rintro ⟨found, asked, attempted, rfl⟩
    exact ⟨⟨found, asked⟩, attempted, rfl⟩

variable {cached : Int}

theorem attempt_of_layer (known : t.layer = some cached) :
    t.attemptGetLayer store (fuel + 1) = pure (some cached, t) := by
  simp [PartialMst.attemptGetLayer, known]

theorem attempt_of_none {found : Option Int} {asked : PartialMst} (unknown : t.layer = none) :
    (t.attemptGetLayer store (fuel + 1)).result = .ok (found, asked) ↔
      ∃ entries, Opens store t entries ∧
        ((∃ rank, layerForEntries store entries = some rank ∧ found = some rank ∧
            asked = { t with layer := some rank, entries := some entries }) ∨
          (layerForEntries store entries = none ∧ ∃ childLayer children,
            (firstChildLayer (PartialMst.attemptGetLayer store fuel) entries).result =
              .ok (childLayer, children) ∧
            found = childLayer.map (· + 1) ∧
            asked = { t with layer := childLayer.map (· + 1), entries := some children })) := by
  simp only [PartialMst.attemptGetLayer, unknown, bind_ok]
  refine exists_congr fun entries => and_congr_right fun _ => ?_
  cases layerForEntries store entries with
  | some rank =>
    simp only [result_pure, Except.ok.injEq, Prod.mk.injEq]
    constructor
    · rintro ⟨rfl, rfl⟩
      exact .inl ⟨rank, rfl, rfl, rfl⟩
    · rintro (⟨_, same, rfl, rfl⟩ | ⟨absent, -⟩)
      · cases same
        exact ⟨rfl, rfl⟩
      · cases absent
  | none =>
    simp only [bind_ok, result_pure, Except.ok.injEq, Prod.mk.injEq]
    constructor
    · rintro ⟨⟨childLayer, children⟩, visited, rfl, rfl⟩
      exact .inr ⟨trivial, childLayer, children, visited, rfl, rfl⟩
    · rintro (⟨_, absent, -⟩ | ⟨-, childLayer, children, visited, rfl, rfl⟩)
      · cases absent
      · exact ⟨⟨childLayer, children⟩, visited, rfl, rfl⟩

theorem getLayer_of_layer (known : t.layer = some cached) :
    t.getLayer store (fuel + 1) = pure (cached, t) := by
  have same : { t with layer := some cached } = t := by
    cases t
    cases known
    rfl
  simp only [PartialMst.getLayer, attempt_of_layer known]
  change (pure _ : Reads _) = _
  simp [same]

theorem layerSound_of_layer (known : t.layer = some layer) : LayerSound store layer t := by
  intro fuel answer returned
  obtain ⟨found, asked, attempted, rfl⟩ := getLayer_ok.mp returned
  cases fuel with
  | zero => cases attempted
  | succ fuel =>
    rw [attempt_of_layer known] at attempted
    cases attempted
    rfl

theorem LayerSound.layer_eq (sound : LayerSound store layer t)
    (known : t.layer = some cached) : cached = layer := by
  have returned : (t.getLayer store 1).result = .ok (cached, t) := by
    rw [getLayer_of_layer known]
    rfl
  exact sound 1 _ returned

theorem firstChildLayer_again {first : PartialMst → Reads (Option Int × PartialMst)}
    (again : PartialMst → Reads (Option Int × PartialMst))
    (repeats : ∀ child asked, (first child).result = .ok (none, asked) →
      ∀ answer, (again asked).result = .ok answer → answer.1 = none) :
    ∀ (entries children : List MstEntry),
      (firstChildLayer first entries).result = .ok (none, children) →
      layerForEntries store entries = none →
      layerForEntries store children = none ∧
        ∀ answer, (firstChildLayer again children).result = .ok answer → answer.1 = none
  | [], children, visited, _ => by
    cases visited
    exact ⟨rfl, fun answer asked => by cases asked; rfl⟩
  | .leaf key value :: rest, children, visited, leafless => by
    simp [layerForEntries] at leafless
  | .tree child :: rest, children, visited, leafless => by
    simp only [firstChildLayer, bind_ok] at visited
    obtain ⟨⟨found, asked⟩, first_asked, later⟩ := visited
    cases found with
    | some found => cases later
    | none =>
      simp only [bind_ok] at later
      obtain ⟨⟨found, others⟩, rest_asked, same⟩ := later
      cases same
      have rest_leafless : layerForEntries store rest = none := by
        simpa [layerForEntries] using leafless
      obtain ⟨stillLeafless, stillNone⟩ :=
        firstChildLayer_again again repeats rest others rest_asked rest_leafless
      refine ⟨by simpa [layerForEntries] using stillLeafless, ?_⟩
      intro answer returned
      simp only [firstChildLayer, bind_ok] at returned
      obtain ⟨⟨found, askedAgain⟩, again_asked, last⟩ := returned
      have none_found : found = none := repeats _ _ first_asked _ again_asked
      subst none_found
      simp only [bind_ok] at last
      obtain ⟨⟨found, othersAgain⟩, rest_again, same⟩ := last
      cases same
      exact stillNone (found, othersAgain) rest_again

theorem attempt_none_again : ∀ (fuel : Nat) (t asked : PartialMst),
    (t.attemptGetLayer store fuel).result = .ok (none, asked) →
    ∀ again answer, (asked.attemptGetLayer store again).result = .ok answer → answer.1 = none
  | 0, _, _, attempted => by cases attempted
  | fuel + 1, t, asked, attempted => by
    intro again answer returned
    cases again with
    | zero => cases returned
    | succ again =>
      cases known : t.layer with
      | some cached =>
        rw [attempt_of_layer known] at attempted
        cases attempted
      | none =>
        obtain ⟨entries, opens, ⟨rank, -, found, -⟩ | ⟨leafless, childLayer, children, visited,
          found, rfl⟩⟩ := (attempt_of_none known).mp attempted
        · cases found
        · cases childLayer with
          | some childLayer => cases found
          | none =>
            obtain ⟨stillLeafless, stillNone⟩ := firstChildLayer_again
              (PartialMst.attemptGetLayer store again)
              (fun child asked first => attempt_none_again fuel child asked first again)
              entries children visited leafless
            obtain ⟨found, askedAgain⟩ := answer
            obtain ⟨opened, opens_again, ⟨rank, ranked, -⟩ | ⟨-, childLayer, others, revisited,
              rfl, -⟩⟩ := (attempt_of_none rfl).mp returned
            all_goals
              simp only [Opens, PartialMst.getEntries, result_pure, Except.ok.injEq]
                at opens_again
              subst opens_again
            · simp [stillLeafless] at ranked
            · have none_again : childLayer = none := stillNone _ revisited
              simp [none_again]

theorem LayerSound.asked {found : Option Int} {asked : PartialMst} (sound : LayerSound store layer t)
    (attempted : (t.attemptGetLayer store fuel).result = .ok (found, asked))
    (cached : found = none ∨ asked.layer = found) : LayerSound store layer asked := by
  have first := sound fuel _ (getLayer_ok.mpr ⟨found, asked, attempted, rfl⟩)
  cases found with
  | none =>
    intro again answer returned
    obtain ⟨refound, reasked, reattempted, rfl⟩ := getLayer_ok.mp returned
    have none_again := attempt_none_again fuel t asked attempted again _ reattempted
    simp only at none_again
    subst none_again
    exact first
  | some found =>
    simp only [Option.getD_some] at first
    subst first
    rcases cached with absent | known
    · cases absent
    · exact layerSound_of_layer known

end Result

/-- A node property that the caches and the new nodes of the tree methods keep,
whether a subtree must hold a record, and the failures that are accounted for. -/
structure Discipline (store : NodeStore) where
  inhabited : Prop
  property : NodeProperty
  admits : Failure → Prop
  admits_exhausted : admits .exhausted
  admits_read : ∀ {layer t records e}, property layer t records →
    (t.getEntries store).result = .error e → admits e
  opened : ∀ {layer t records} (entries : List MstEntry), property layer t records →
    property layer { t with entries := some entries } records
  cached : ∀ {layer t records}, property layer t records →
    property layer { t with layer := some layer } records
  newTree : ∀ {layer t records} (entries : List MstEntry) {records' : Records},
    property layer t records → (inhabited → records' ≠ []) →
    property layer (t.newTree entries) records'
  made : ∀ {layer : Int} {records : Records} (pointer : Cid) (entries : List MstEntry),
    (inhabited → records ≠ []) →
    property layer ⟨pointer, true, some layer, some entries⟩ records
  child : ∀ (layer : Int),
    property layer ⟨store.cidForNodeData ⟨none, []⟩, false, some layer, some []⟩ []

namespace Discipline

variable (D : Discipline store) {height : Nat} {records : Records}

def before : NodeProperty :=
  fun layer t records => D.property layer t records ∧ LayerSound store layer t

def Given (height : Nat) : NodeProperty := Holds store D.inhabited D.before height

def Result : NodeProperty := Held store D.inhabited D.property

variable {D}

theorem Given.result (given : D.Given height layer t records) : D.Result layer t records :=
  ⟨height, Holds.imp (fun _ _ _ node => node.1) given⟩

theorem Given.property (given : D.Given height layer t records) : D.property layer t records :=
  (Holds.node given).1

theorem Given.sound (given : D.Given height layer t records) : LayerSound store layer t :=
  (Holds.node given).2

theorem Given.succ_eq (given : D.Given height layer t records) :
    ∃ below, height = below + 1 := by
  cases height with
  | zero => exact given.elim
  | succ below => exact ⟨below, rfl⟩

theorem Given.filled {entries : List MstEntry} (given : D.Given (height + 1) layer t records)
    (opens : Opens store t entries) :
    Filled store D.inhabited (D.Given height) layer entries records :=
  given.2.2 entries opens

theorem meets_getEntries {α : Type} {post : α → Prop} {f : List MstEntry → Reads α}
    (property : D.property layer t records)
    (next : ∀ entries, Opens store t entries → Meets post D.admits (f entries)) :
    Meets post D.admits (t.getEntries store >>= f) := by
  have loaded : Meets (Opens store t) D.admits (t.getEntries store) :=
    ⟨fun _ returned => returned, fun _ failed => D.admits_read property failed⟩
  exact loaded.bind fun entries opens _ => next entries opens

theorem meets_firstChildLayer {F : NodeProperty} {visit : PartialMst → Reads (Option Int × PartialMst)}
    (each : ∀ layer child records, F layer child records →
      Meets (fun a => (a.1 = none ∨ a.1 = some layer) ∧ F layer a.2 records) D.admits
        (visit child)) :
    ∀ {entries records}, InOrder store.leadingZerosOnHash (Child D.inhabited F) layer entries records →
      Meets (fun a => (a.1 = none ∨ a.1 = some (layer - 1)) ∧
        InOrder store.leadingZerosOnHash (Child D.inhabited F) layer a.2 records ∧
        a.2.map Entry.isTree = entries.map Entry.isTree) D.admits
        (firstChildLayer visit entries)
  | [], _, listed => meets_pure ⟨.inl rfl, listed, rfl⟩
  | .leaf key value :: rest, _, .leaf ranked listed => by
    refine (meets_firstChildLayer each listed).bind fun (found, children) _ met => ?_
    obtain ⟨answer, held, same⟩ := met
    exact meets_pure ⟨answer, .leaf ranked held, by simpa using same⟩
  | .tree child :: rest, _, .tree held listed => by
    refine (each _ _ _ held.1).bind fun (found, asked) _ met => ?_
    obtain ⟨answer, kept⟩ := met
    cases found with
    | some found => exact meets_pure ⟨answer, .tree ⟨kept, held.2⟩ listed, rfl⟩
    | none =>
      refine (meets_firstChildLayer each listed).bind fun (found, children) _ met => ?_
      obtain ⟨answer, others, same⟩ := met
      exact meets_pure ⟨answer, .tree ⟨kept, held.2⟩ others, by simpa using same⟩

/-- Asking a node for its layer finds that layer or none, and the node with what it
cached holds the same records. The induction is on the bound of the recursion. -/
theorem meets_attemptGetLayer : ∀ (fuel : Nat) {height layer t records},
    D.Given height layer t records →
    Meets (fun a => (a.1 = none ∨ a.1 = some layer) ∧ D.Given height layer a.2 records) D.admits
      (t.attemptGetLayer store fuel)
  | 0, _, _, _, _, _ => meets_fail D.admits_exhausted
  | fuel + 1, height, layer, t, records, given => by
    obtain ⟨below, rfl⟩ := given.succ_eq
    cases known : t.layer with
    | some cached =>
      rw [attempt_of_layer known, given.sound.layer_eq known]
      exact meets_pure ⟨.inr rfl, given⟩
    | none =>
      -- the answer is cached before its soundness is known from the whole run
      suffices asked : Meets (fun a => (a.1 = none ∨ a.1 = some layer) ∧ a.2.layer = a.1 ∧
          D.property layer a.2 records ∧ ∀ opened, Opens store a.2 opened →
            Filled store D.inhabited (D.Given below) layer opened records) D.admits
          (t.attemptGetLayer store (fuel + 1)) by
        refine asked.imp fun reply attempted met => ?_
        obtain ⟨found, node⟩ := reply
        obtain ⟨answer, cached, property, filled⟩ := met
        exact ⟨answer, ⟨property, given.sound.asked attempted (.inr cached)⟩, given.2.1, filled⟩
      simp only [PartialMst.attemptGetLayer, known]
      refine meets_getEntries given.property fun entries opens => ?_
      have filled := given.filled opens
      have reopened {cached : Option Int} {children : List MstEntry}
          (kept : Filled store D.inhabited (D.Given below) layer children records) :
          ∀ opened, Opens store { t with layer := cached, entries := some children } opened →
            Filled store D.inhabited (D.Given below) layer opened records := by
        intro opened opens_again
        simp only [Opens, PartialMst.getEntries, result_pure, Except.ok.injEq]
          at opens_again
        exact opens_again ▸ kept
      cases ranked : layerForEntries store entries with
      | some rank =>
        have attempted : (t.attemptGetLayer store 2).result = .ok (some rank,
            { t with layer := some rank, entries := some entries }) :=
          (attempt_of_none known).mpr ⟨entries, opens, .inl ⟨rank, ranked, rfl, rfl⟩⟩
        have own : rank = layer := given.sound 2 _ (getLayer_ok.mpr ⟨_, _, attempted, rfl⟩)
        subst own
        exact meets_pure ⟨.inr rfl, rfl, D.cached (D.opened entries given.property),
          reopened filled⟩
      | none =>
        have visited := meets_firstChildLayer (D := D) (F := D.Given below)
          (fun _ _ _ held => meets_attemptGetLayer fuel held) filled.inOrder
        refine visited.bind fun reply _ met => ?_
        obtain ⟨found, children⟩ := reply
        obtain ⟨answer, listed, same⟩ := met
        have kept : Filled store D.inhabited (D.Given below) layer children records :=
          ⟨(alternates_congr same).mpr filled.alternates, listed⟩
        rcases answer with rfl | rfl
        · refine meets_pure ⟨.inl rfl, rfl, ?_, reopened kept⟩
          have property := D.opened children given.property
          rw [known] at property
          exact property
        · have up : layer - 1 + 1 = layer := by omega
          refine meets_pure ⟨.inr (by simp [up]), rfl, ?_, reopened kept⟩
          simp only [Option.map_some, up]
          exact D.cached (D.opened children given.property)

theorem meets_getLayer {fuel : Nat} (given : D.Given height layer t records) :
    Meets (fun a => a.1 = layer ∧ a.2.layer = some layer ∧ D.Given height layer a.2 records)
      D.admits (t.getLayer store fuel) := by
  obtain ⟨below, rfl⟩ := given.succ_eq
  unfold PartialMst.getLayer
  refine (meets_attemptGetLayer fuel given).bind fun (found, asked) attempted met => ?_
  obtain ⟨answer, held⟩ := met
  have own : found.getD 0 = layer :=
    given.sound fuel _ (getLayer_ok.mpr ⟨found, asked, attempted, rfl⟩)
  simp only [own]
  refine meets_pure ⟨rfl, rfl, ⟨D.cached held.property, layerSound_of_layer rfl⟩,
    held.2.1, ?_⟩
  intro entries opens
  exact held.filled opens

end Discipline

end MastopodFederation.Guarantees.MstLayers
