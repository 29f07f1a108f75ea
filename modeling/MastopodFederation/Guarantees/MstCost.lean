import MastopodFederation.Guarantees.MstDescent

/-!
# What the tree methods read

A terrain is what can be read below it: every way down stops within a depth, and ranks have a
limit; in a tidy one only loaded nodes are outdated. Each method returns, within a bound on its
recursion, after a number of reads that the height of the tree bounds.
-/
namespace MastopodFederation.Guarantees.MstCost
open Source.Cbor Source.CommitEvent Source.Mst Lib.Logged Lib.LayeredEntries
open MstShape MstLayers MstDescent Lib.Logged.Logged

structure Terrain (store : NodeStore) where
  region : Cid → Prop
  depth : Nat
  limit : Nat
  floor : Int
  tidy : Prop
  floor_le : floor ≤ -1
  closed : ∀ {cid entries s}, region cid → Opens store (.load cid none) entries →
    .tree s ∈ entries → region s.pointer
  ranked : ∀ {cid entries key value}, region cid → Opens store (.load cid none) entries →
    .leaf key value ∈ entries → store.leadingZerosOnHash key ≤ limit
  comes_back : ∀ {cid}, region cid →
    (PartialMst.getEntries store (.load cid none)).result ≠ .error .exhausted
  shallow : ∀ {cid}, region cid → ∀ direction, Within store direction depth (.load cid none)

variable {store : NodeStore}

def Ends (e : Failure) : Prop := e ≠ .exhausted

section Height

variable (T : Terrain store)

def EntryOk (below : PartialMst → Prop) : MstEntry → Prop
  | .leaf key _ => store.leadingZerosOnHash key ≤ T.limit
  | .tree s => below s

structure Stocked (below : PartialMst → Prop) (entries : List MstEntry) : Prop where
  alternates : Alternates entries
  each : ∀ entry ∈ entries, EntryOk T below entry

structure Node (height : Nat) (below : PartialMst → Prop) (t : PartialMst) : Prop where
  layer : ∀ x, t.layer = some x → T.floor ≤ x ∧ x ≤ T.limit + height
  outdated : T.tidy → t.outdatedPointer = true → t.entries ≠ none
  unloaded : t.entries = none → T.region t.pointer ∧ Within store .first (height + 1) t
  loaded : ∀ entries, t.entries = some entries → Stocked T below entries

def Deep : Nat → PartialMst → Prop
  | 0 => fun _ => False
  | height + 1 => Node T height (Deep height)

variable {T} {below above : PartialMst → Prop} {height taller : Nat} {t : PartialMst}
  {entries : List MstEntry}

theorem EntryOk.imp {entry : MstEntry} (imp : ∀ s, below s → above s)
    (ok : EntryOk T below entry) : EntryOk T above entry := by
  cases entry with
  | leaf => exact ok
  | tree s => exact imp s ok

theorem Stocked.imp (imp : ∀ s, below s → above s) (stocked : Stocked T below entries) :
    Stocked T above entries :=
  ⟨stocked.alternates, fun entry mem => (stocked.each entry mem).imp imp⟩

theorem Deep.pos (deep : Deep T height t) : ∃ less, height = less + 1 := by
  cases height with
  | zero => exact deep.elim
  | succ less => exact ⟨less, rfl⟩

theorem Deep.succ : ∀ {height t}, Deep T height t → Deep T (height + 1) t
  | 0, _, deep => deep.elim
  | height + 1, _, deep => by
    refine ⟨fun x known => ?_, deep.outdated, fun none => ?_, fun entries some => ?_⟩
    · have bounds := deep.layer x known
      omega
    · exact ⟨(deep.unloaded none).1, (deep.unloaded none).2.succ⟩
    · exact (deep.loaded entries some).imp fun _ => Deep.succ

theorem Deep.mono (le : height ≤ taller) (deep : Deep T height t) : Deep T taller t := by
  induction le with
  | refl => exact deep
  | step _ ih => exact ih.succ

theorem opens_of_entries (loaded : t.entries = some entries) {opened : List MstEntry}
    (opens : Opens store t opened) : opened = entries := by
  simp only [Opens, PartialMst.getEntries, loaded, result_pure, Except.ok.injEq] at opens
  exact opens.symm

theorem Deep.within (direction : Direction) : ∀ {height t}, Deep T height t →
    Within store direction (height + T.depth) t
  | 0, _, deep => deep.elim
  | height + 1, t, deep => by
    cases loaded : t.entries with
    | none =>
      have shallow := T.shallow (deep.unloaded loaded).1 direction
      exact ((within_load loaded none).mpr shallow).mono (by omega)
    | some own =>
      rw [show height + 1 + T.depth = height + T.depth + 1 by omega]
      intro entries opens s down
      rw [opens_of_entries loaded opens] at down
      exact ((deep.loaded own loaded).each _ (mem_of_down down)).within direction

theorem layerForEntries_some {x : Int} (found : layerForEntries store entries = some x) :
    ∃ key value, .leaf key value ∈ entries ∧ x = store.leadingZerosOnHash key := by
  obtain ⟨entry, mem, is_rank⟩ := List.exists_of_findSome?_eq_some found
  cases entry with
  | leaf key value => exact ⟨key, value, mem, by simpa [eq_comm] using is_rank⟩
  | tree => cases is_rank

theorem read_deep (unloaded : t.entries = none) (region : T.region t.pointer)
    (opens : Opens store t entries) {s : PartialMst} (mem : .tree s ∈ entries)
    (within : Within store .first (height + 1) s) : Deep T (height + 1) s := by
  obtain ⟨-, links, -⟩ := read_entries unloaded opens
  have link := links s mem
  have read := (opens_load unloaded none).mp opens
  have entries_none : s.entries = none := by rw [link]; rfl
  refine ⟨fun x known => ?_, fun _ outdated => ?_, fun _ => ⟨T.closed region read mem, within⟩,
    fun own some => ?_⟩
  · rw [link] at known
    simp only [PartialMst.load, Option.map_eq_some_iff] at known
    obtain ⟨rank, found, rfl⟩ := known
    obtain ⟨key, value, leaf, rfl⟩ := layerForEntries_some found
    have low := T.ranked region read leaf
    have floor := T.floor_le
    omega
  · rw [link] at outdated
    cases outdated
  · rw [entries_none] at some
    cases some

theorem Deep.opened (deep : Deep T height t) (tall : T.depth < height)
    (opens : Opens store t entries) : Stocked T (Deep T height) entries := by
  obtain ⟨less, rfl⟩ := deep.pos
  cases loaded : t.entries with
  | none =>
    obtain ⟨apart, links, -⟩ := read_entries loaded opens
    have region := (deep.unloaded loaded).1
    have read := (opens_load loaded none).mp opens
    refine ⟨apart, fun entry mem => ?_⟩
    cases entry with
    | leaf key value => exact T.ranked region read mem
    | tree s =>
      refine read_deep loaded region opens mem ?_
      have unloaded : s.entries = none := by rw [links s mem]; rfl
      have shallow := T.shallow (T.closed region read mem) .first
      exact ((within_load unloaded none).mpr shallow).mono (by omega)
  | some own =>
    rw [opens_of_entries loaded opens]
    exact (deep.loaded own loaded).imp fun _ => Deep.succ

theorem Deep.leafless (deep : Deep T (height + 1) t) (opens : Opens store t entries)
    (leafless : layerForEntries store entries = none) :
    entries = [] ∨ ∃ s, entries = [.tree s] ∧ Deep T height s := by
  have apart : Alternates entries := by
    cases loaded : t.entries with
    | none => exact (read_entries loaded opens).1
    | some own =>
      rw [opens_of_entries loaded opens]
      exact (deep.loaded own loaded).alternates
  rcases entries with _ | ⟨⟨key, value⟩ | s, _ | ⟨⟨key, value⟩ | s', rest⟩⟩
  · exact .inl rfl
  · simp [layerForEntries] at leafless
  · simp [layerForEntries] at leafless
  · simp [layerForEntries] at leafless
  · right
    refine ⟨s, rfl, ?_⟩
    cases loaded : t.entries with
    | none =>
      have within := (deep.unloaded loaded).2 _ opens s rfl
      obtain ⟨less, rfl⟩ := within.pos
      exact read_deep loaded (deep.unloaded loaded).1 opens (by simp) within
    | some own =>
      have same := opens_of_entries loaded opens
      exact (deep.loaded own loaded).each (.tree s) (by simp [← same])
  · simp [layerForEntries] at leafless
  · have touch := (alternates_tree_cons.mp apart).1 s'
    simp at touch

theorem Deep.newTree (deep : Deep T height t) (taller : Nat)
    (stocked : Stocked T (Deep T taller) entries) (le : height ≤ taller + 1) : Deep T (taller + 1) (t.newTree entries) := by
  have taller_node := deep.mono le
  refine ⟨taller_node.layer, fun _ _ => by simp [PartialMst.newTree],
    fun none => by simp [PartialMst.newTree] at none, fun own some => ?_⟩
  cases some
  exact stocked

end Height

section Costs

variable {T : Terrain store} {height : Nat} {t : PartialMst} {key : String}

theorem spends_getEntries (deep : Deep T height t) :
    Spends 1 (Opens store t) Ends (t.getEntries store) := by
  refine ⟨?_, fun _ returned => returned, fun e failed => ?_⟩
  · unfold PartialMst.getEntries
    split
    · simp
    · cases read : store.readNode t.pointer with
      | error e => simp [bind_of_error (x := Logged.reply t.pointer _) rfl]
      | ok data => simp [bind_of_ok (x := Logged.reply t.pointer _) rfl]
  · obtain ⟨less, rfl⟩ := deep.pos
    cases loaded : t.entries with
    | none =>
      rintro rfl
      have honest := T.comes_back (deep.unloaded loaded).1
      simp only [PartialMst.getEntries, PartialMst.load, loaded] at failed honest
      exact honest failed
    | some own =>
      simp only [PartialMst.getEntries, loaded] at failed
      cases failed

theorem spends_get : ∀ (fuel : Nat) {steps : Nat} {t : PartialMst},
    Deep T height t → T.depth < height → Within store (.search key) steps t → steps ≤ fuel →
    Spends steps (fun _ => True) Ends (t.get store fuel key)
  | 0, steps, _, _, _, within, le => by
    obtain ⟨less, rfl⟩ := within.pos
    omega
  | fuel + 1, steps, t, deep, tall, within, le => by
    obtain ⟨less, rfl⟩ := within.pos
    unfold PartialMst.get
    rw [Nat.add_comm less 1]
    refine (spends_getEntries deep).bind fun entries _ opens => ?_
    have stocked := deep.opened tall opens
    dsimp only
    split
    · exact spends_pure trivial
    · split
      next s down =>
        have way : (Direction.search key).down entries = some s := down
        have child : Deep T height s := stocked.each _ (mem_of_down way)
        exact spends_get fuel child tall (within entries opens s down) (by omega)
      · exact spends_pure trivial

theorem asked_deep {entries : List MstEntry} {layer : Option Int} {more : Nat}
    (bounds : ∀ x, layer = some x → T.floor ≤ x ∧ x ≤ T.limit + height)
    (stocked : Stocked T (Deep T (height + more)) entries) :
    Deep T (height + 1 + more) { t with layer := layer, entries := some entries } := by
  rw [Nat.add_right_comm]
  refine ⟨fun x known => ?_, fun _ _ => by simp, fun none => by simp at none, fun own some => ?_⟩
  · have within := bounds x known
    omega
  · cases some
    exact stocked

theorem spends_attemptGetLayer : ∀ (fuel : Nat) {height : Nat} {t : PartialMst},
    Deep T (height + 1) t → height + 1 ≤ fuel →
    Spends (height + 1)
      (fun a => (∀ x, a.1 = some x → T.floor ≤ x ∧ x ≤ T.limit + height) ∧
        Deep T (height + 1 + (T.depth + 1)) a.2) Ends
      (t.attemptGetLayer store fuel)
  | 0, _, _, _, le => by omega
  | fuel + 1, height, t, deep, le => by
    cases known : t.layer with
    | some cached =>
      rw [attempt_of_layer known]
      exact spends_pure ⟨fun x same => by
        cases same
        exact deep.layer cached known, deep.mono (by omega)⟩
    | none =>
      simp only [PartialMst.attemptGetLayer, known]
      rw [Nat.add_comm height 1]
      refine (spends_getEntries deep).bind fun entries _ opens => ?_
      rw [Nat.add_comm 1 height]
      have opened : Stocked T (Deep T (height + (T.depth + 1))) entries := by
        refine Deep.opened (deep.mono (by omega)) (by omega) opens
      cases ranked : layerForEntries store entries with
      | some rank =>
        have bounds : ∀ x, some rank = some x → T.floor ≤ x ∧ x ≤ T.limit + height := by
          rintro x ⟨⟩
          obtain ⟨key, value, mem, rfl⟩ := layerForEntries_some ranked
          have low : store.leadingZerosOnHash key ≤ T.limit := opened.each _ mem
          have floor := T.floor_le
          omega
        exact spends_pure ⟨bounds, asked_deep bounds opened⟩
      | none =>
        rcases deep.leafless opens ranked with rfl | ⟨s, rfl, lower⟩
        · have none_known : ∀ x, (none : Option Int) = some x →
              T.floor ≤ x ∧ x ≤ T.limit + height := by rintro x ⟨⟩
          exact spends_pure ⟨none_known, asked_deep none_known opened⟩
        · obtain ⟨less, rfl⟩ := lower.pos
          have visited : Spends (less + 1)
              (fun a : Option Int × List MstEntry =>
                (∀ x, a.1 = some x → T.floor ≤ x ∧ x ≤ T.limit + less) ∧
                  ∃ s', a.2 = [.tree s'] ∧ Deep T (less + 1 + (T.depth + 1)) s') Ends
              (firstChildLayer (PartialMst.attemptGetLayer store fuel) [.tree s]) := by
            rw [firstChildLayer]
            refine (spends_attemptGetLayer fuel lower (by omega)).bindFree fun answer _ met => ?_
            obtain ⟨found, s'⟩ := answer
            obtain ⟨bounds, deep'⟩ := met
            cases found with
            | some found => exact spends_pure ⟨bounds, s', rfl, deep'⟩
            | none => exact spends_pure ⟨by rintro x ⟨⟩, s', rfl, deep'⟩
          refine visited.bindFree fun answer _ met => ?_
          obtain ⟨found, children⟩ := answer
          obtain ⟨bounds, s', rfl, deep'⟩ := met
          have up : ∀ x, found.map (· + 1) = some x →
              T.floor ≤ x ∧ x ≤ T.limit + ((less + 1 : Nat) : Int) := by
            intro x same
            obtain ⟨y, rfl, rfl⟩ := Option.map_eq_some_iff.mp same
            have within := bounds y rfl
            omega
          refine spends_pure ⟨up, asked_deep up ⟨by simp [alternates_tree_cons], ?_⟩⟩
          intro entry mem
          simp only [List.mem_singleton] at mem
          subst mem
          exact deep'

theorem spends_getLayer {fuel : Nat} (deep : Deep T height t) (le : height ≤ fuel) :
    Spends height (fun a => T.floor ≤ a.1 ∧ a.1 < (T.limit : Int) + height ∧
      a.2.layer = some a.1 ∧ Deep T (height + (T.depth + 1)) a.2) Ends
      (t.getLayer store fuel) := by
  obtain ⟨less, rfl⟩ := deep.pos
  unfold PartialMst.getLayer
  refine (spends_attemptGetLayer fuel deep le).bindFree fun (found, asked) _ met => ?_
  obtain ⟨bounds, deep'⟩ := met
  have own : T.floor ≤ found.getD 0 ∧ found.getD 0 ≤ T.limit + less := by
    cases found with
    | some x => exact bounds x rfl
    | none =>
      have floor := T.floor_le
      simp only [Option.getD_none]
      omega
  refine spends_pure ⟨own.1, by simp only; omega, rfl, ?_⟩
  rw [show less + 1 + (T.depth + 1) = less + (T.depth + 1) + 1 by omega] at deep' ⊢
  refine ⟨fun x known => ?_, deep'.outdated, deep'.unloaded, deep'.loaded⟩
  cases known
  omega

end Costs

end MastopodFederation.Guarantees.MstCost
