import Mathlib.Data.List.Chain
import MastopodFederation.Lib.SortedMap

/-!
# Nodes of a search tree whose leaves have a rank

A node is a list of entries: leaves, and subtrees between them. A leaf stands at the layer that
is its rank, a subtree one layer lower. What a subtree holds is a parameter, so the rules below
compose along the recursion of any tree.
-/
namespace MastopodFederation.Lib.LayeredEntries
open SortedMap

inductive Entry (τ κ ν : Type) where
  | leaf (key : κ) (value : ν)
  | tree (subtree : τ)

variable {τ σ κ ν : Type}

namespace Entry

def isTree : Entry τ κ ν → Bool
  | .tree _ => true
  | .leaf _ _ => false

def mapTree (f : τ → σ) : Entry τ κ ν → Entry σ κ ν
  | .leaf key value => .leaf key value
  | .tree subtree => .tree (f subtree)

inductive Related (R : τ → σ → Prop) : Entry τ κ ν → Entry σ κ ν → Prop
  | leaf {key value} : Related R (.leaf key value) (.leaf key value)
  | tree {t s} : R t s → Related R (.tree t) (.tree s)

def atLeast [LinearOrder κ] (bound : κ) : Entry τ κ ν → Bool
  | .leaf key _ => bound ≤ key
  | .tree _ => false

@[simp] theorem isTree_tree (t : τ) : (.tree t : Entry τ κ ν).isTree = true := rfl
@[simp] theorem isTree_leaf (key : κ) (value : ν) :
    (.leaf key value : Entry τ κ ν).isTree = false := rfl

@[simp] theorem atLeast_leaf [LinearOrder κ] (bound key : κ) (value : ν) :
    atLeast bound (.leaf key value : Entry τ κ ν) = decide (bound ≤ key) := rfl
@[simp] theorem atLeast_tree [LinearOrder κ] (bound : κ) (t : τ) :
    atLeast bound (.tree t : Entry τ κ ν) = false := rfl

end Entry

def maybeTree (subtree : Option τ) : List (Entry τ κ ν) := subtree.toList.map .tree

@[simp] theorem maybeTree_none : maybeTree (none : Option τ) = ([] : List (Entry τ κ ν)) := rfl
@[simp] theorem maybeTree_some (t : τ) :
    maybeTree (some t) = [(.tree t : Entry τ κ ν)] := rfl

@[simp] theorem tree_mem_maybeTree {t : Option τ} {s : τ} :
    (.tree s : Entry τ κ ν) ∈ maybeTree t ↔ t = some s := by
  cases t <;> simp [eq_comm]

@[simp] theorem leaf_mem_maybeTree {t : Option τ} {key : κ} {value : ν} :
    (.leaf key value : Entry τ κ ν) ∉ maybeTree t := by
  cases t <;> simp

def Alternates (entries : List (Entry τ κ ν)) : Prop :=
  entries.IsChain fun a b => ¬(a.isTree ∧ b.isTree)

def EndsInLeaf (entries : List (Entry τ κ ν)) : Prop := ∀ t, entries.getLast? ≠ some (.tree t)

def StartsWithLeaf (entries : List (Entry τ κ ν)) : Prop := ∀ t, entries.head? ≠ some (.tree t)

section Alternation

variable {entries left right : List (Entry τ κ ν)} {key : κ} {value : ν} {t : τ}

@[simp] theorem alternates_nil : Alternates ([] : List (Entry τ κ ν)) := List.isChain_nil

@[simp] theorem startsWithLeaf_nil : StartsWithLeaf ([] : List (Entry τ κ ν)) := by
  simp [StartsWithLeaf]

@[simp] theorem endsInLeaf_nil : EndsInLeaf ([] : List (Entry τ κ ν)) := by simp [EndsInLeaf]

@[simp] theorem startsWithLeaf_leaf : StartsWithLeaf (.leaf key value :: entries) := by
  simp [StartsWithLeaf]

@[simp] theorem endsInLeaf_leaf : EndsInLeaf (left ++ [.leaf key value]) := by
  simp [EndsInLeaf]

@[simp] theorem alternates_leaf_cons :
    Alternates (.leaf key value :: entries) ↔ Alternates entries := by
  simp [Alternates, List.isChain_cons]

theorem alternates_tree_cons :
    Alternates (.tree t :: entries) ↔ StartsWithLeaf entries ∧ Alternates entries := by
  rcases entries with _ | ⟨first | first, rest⟩ <;>
    simp [Alternates, List.isChain_cons, StartsWithLeaf]

theorem Alternates.left_part (apart : Alternates (left ++ right)) : Alternates left :=
  List.IsChain.left_of_append apart

theorem alternates_append_of_startsWithLeaf (first : StartsWithLeaf right) :
    Alternates (left ++ right) ↔ Alternates left ∧ Alternates right := by
  rcases right with _ | ⟨⟨key, value⟩ | t, rest⟩
  · simp
  · simp [Alternates, List.isChain_append]
  · exact absurd rfl (first t)

theorem alternates_append_of_endsInLeaf (last : EndsInLeaf left) :
    Alternates (left ++ right) ↔ Alternates left ∧ Alternates right := by
  rcases List.eq_nil_or_concat left with rfl | ⟨start, final, rfl⟩
  · simp
  · rw [List.concat_eq_append] at last ⊢
    rcases final with ⟨key, value⟩ | t
    · simp [Alternates, List.isChain_append, List.isChain_cons]
    · exact absurd (by simp) (last t)

@[simp] theorem alternates_maybeTree (t : Option τ) :
    Alternates (maybeTree t : List (Entry τ κ ν)) := by
  cases t <;> simp [alternates_tree_cons]

theorem alternates_around (last : EndsInLeaf left) (first : StartsWithLeaf right)
    (t : Option τ) :
    Alternates (left ++ maybeTree t ++ right) ↔ Alternates left ∧ Alternates right := by
  rw [alternates_append_of_startsWithLeaf first, alternates_append_of_endsInLeaf last]
  simp

theorem EndsInLeaf.of_append_tree (apart : Alternates (left ++ [.tree t])) :
    EndsInLeaf left := by
  intro s last
  have neighbours := (List.isChain_append.mp apart).2.2 (.tree s) last (.tree t) rfl
  exact neighbours ⟨rfl, rfl⟩

theorem alternates_congr {others : List (Entry σ κ ν)}
    (same : others.map Entry.isTree = entries.map Entry.isTree) :
    Alternates others ↔ Alternates entries := by
  have kinds {ρ : Type} (list : List (Entry ρ κ ν)) :
      Alternates list ↔ (list.map Entry.isTree).IsChain fun a b : Bool => ¬(a ∧ b) := by
    simp [Alternates, List.isChain_map]
  rw [kinds, kinds, same]

end Alternation

section Search

variable [LinearOrder κ]

/-- Entries cut where the search for a key stops: the first leaf whose key is at
least the bound starts `post`, and `mid` is the subtree right before it. -/
structure Cut (entries : List (Entry τ κ ν)) (bound : κ) (pre : List (Entry τ κ ν))
    (mid : Option τ) (post : List (Entry τ κ ν)) : Prop where
  entries_eq : entries = pre ++ maybeTree mid ++ post
  index_eq : entries.findIdx (Entry.atLeast bound) = (pre ++ maybeTree mid).length
  small : ∀ key value, .leaf key value ∈ pre → key < bound
  endsInLeaf : EndsInLeaf pre
  stops : post = [] ∨ ∃ key value rest, post = .leaf key value :: rest ∧ bound ≤ key

variable {entries pre post : List (Entry τ κ ν)} {mid : Option τ} {bound : κ}

theorem Cut.startsWithLeaf (cut : Cut entries bound pre mid post) : StartsWithLeaf post := by
  rcases cut.stops with rfl | ⟨key, value, rest, rfl, -⟩ <;> simp

theorem Cut.alternates_parts (cut : Cut entries bound pre mid post) (apart : Alternates entries) :
    Alternates pre ∧ Alternates post := by
  rwa [cut.entries_eq, alternates_around cut.endsInLeaf cut.startsWithLeaf] at apart

theorem Cut.alternates_leaf (cut : Cut entries bound pre mid post)
    (parts : Alternates pre ∧ Alternates post) (left right : Option τ) (key : κ) (value : ν) :
    Alternates (pre ++ (maybeTree left ++ .leaf key value :: maybeTree right) ++ post) := by
  have inner : Alternates (maybeTree left ++ .leaf key value :: maybeTree right) := by
    rw [alternates_append_of_startsWithLeaf (by simp)]
    simp
  rw [alternates_append_of_startsWithLeaf cut.startsWithLeaf,
    alternates_append_of_endsInLeaf cut.endsInLeaf]
  exact ⟨⟨parts.1, inner⟩, parts.2⟩

theorem exists_cut (apart : Alternates entries) (bound : κ) :
    ∃ pre mid post, Cut entries bound pre mid post := by
  have whole := List.take_append_drop (entries.findIdx (Entry.atLeast bound)) entries
  have reach : entries.findIdx (Entry.atLeast bound) ≤ entries.length := List.findIdx_le_length
  have early (e : Entry τ κ ν) (mem : e ∈ entries.take (entries.findIdx (Entry.atLeast bound))) :
      e.atLeast bound = false := by
    simpa using List.false_of_mem_take_findIdx mem
  have length : (entries.take (entries.findIdx (Entry.atLeast bound))).length =
      entries.findIdx (Entry.atLeast bound) := List.length_take_of_le reach
  have stops : entries.drop (entries.findIdx (Entry.atLeast bound)) = [] ∨
      ∃ key value rest, entries.drop (entries.findIdx (Entry.atLeast bound)) =
        .leaf key value :: rest ∧ bound ≤ key := by
    rcases reach.lt_or_eq with inside | past
    · right
      have found := List.findIdx_getElem (w := inside)
      rw [List.drop_eq_getElem_cons inside]
      rcases entry : entries[entries.findIdx (Entry.atLeast bound)] with ⟨key, value⟩ | t
      · exact ⟨key, value, _, rfl, by simpa [entry] using found⟩
      · simp [entry] at found
    · left
      simp [past]
  generalize index_eq : entries.findIdx (Entry.atLeast bound) = index at whole early length stops
  generalize entries.take index = before at whole early length
  generalize entries.drop index = post at whole stops
  subst whole length
  have small (key : κ) (value : ν) (mem : .leaf key value ∈ before) : key < bound := by
    simpa using early _ mem
  rcases List.eq_nil_or_concat before with rfl | ⟨start, last, rfl⟩
  · exact ⟨[], none, post, by simp, by simpa using index_eq, by simp, by simp, stops⟩
  · rw [List.concat_eq_append] at *
    rcases last with ⟨key, value⟩ | t
    · exact ⟨start ++ [.leaf key value], none, post, by simp, by simpa using index_eq, small,
        by simp, stops⟩
    · refine ⟨start, some t, post, by simp, by simpa using index_eq, ?_,
        EndsInLeaf.of_append_tree apart.left_part, stops⟩
      intro key value mem
      exact small key value (by simp [mem])

end Search

section Related

variable {R : τ → σ → Prop} {entries : List (Entry τ κ ν)} {others : List (Entry σ κ ν)}

theorem related_refl {R : τ → τ → Prop} (refl : ∀ t, R t t) (entries : List (Entry τ κ ν)) :
    List.Forall₂ (Entry.Related R) entries entries :=
  List.forall₂_same.mpr fun entry _ => by
    cases entry with
    | leaf => exact .leaf
    | tree t => exact .tree (refl t)

theorem findIdx_related [LinearOrder κ]
    (related : List.Forall₂ (Entry.Related R) entries others) (bound : κ) :
    others.findIdx (Entry.atLeast bound) = entries.findIdx (Entry.atLeast bound) := by
  induction related with
  | nil => rfl
  | cons same _ ih =>
    cases same <;> simp [List.findIdx_cons, ih]

theorem exists_related_tree (related : List.Forall₂ (Entry.Related R) entries others)
    {index : Nat} {s : σ} (here : others[index]? = some (.tree s)) :
    ∃ t, entries[index]? = some (.tree t) ∧ R t s := by
  induction related generalizing index with
  | nil => simp at here
  | cons same _ ih =>
    cases index with
    | zero =>
      cases same with
      | leaf => simp at here
      | tree linked =>
        simp only [List.getElem?_cons_zero, Option.some.injEq, Entry.tree.injEq] at here
        subst here
        exact ⟨_, rfl, linked⟩
    | succ index => simpa using ih (by simpa using here)

end Related

section Items

variable {rank : κ → Nat} {holds other : Int → τ → Items κ ν → Prop} {layer : Int}

inductive InOrder (rank : κ → Nat) (holds : Int → τ → Items κ ν → Prop) (layer : Int) :
    List (Entry τ κ ν) → Items κ ν → Prop
  | nil : InOrder rank holds layer [] []
  | leaf {key value entries items} : (rank key : Int) = layer →
      InOrder rank holds layer entries items →
      InOrder rank holds layer (.leaf key value :: entries) ((key, value) :: items)
  | tree {subtree inner entries items} : holds (layer - 1) subtree inner →
      InOrder rank holds layer entries items →
      InOrder rank holds layer (.tree subtree :: entries) (inner ++ items)

variable {entries left right : List (Entry τ κ ν)} {items : Items κ ν}

theorem InOrder.mono (imp : ∀ layer t items, holds layer t items → other layer t items)
    (listed : InOrder rank holds layer entries items) :
    InOrder rank other layer entries items := by
  induction listed with
  | nil => exact .nil
  | leaf ranked _ ih => exact .leaf ranked ih
  | tree held _ ih => exact .tree (imp _ _ _ held) ih

theorem InOrder.append {before after : Items κ ν} (first : InOrder rank holds layer left before)
    (second : InOrder rank holds layer right after) :
    InOrder rank holds layer (left ++ right) (before ++ after) := by
  induction first with
  | nil => exact second
  | leaf ranked _ ih => exact .leaf ranked ih
  | tree held _ ih =>
    rw [List.append_assoc]
    exact .tree held ih

theorem InOrder.of_append (listed : InOrder rank holds layer (left ++ right) items) :
    ∃ before after, items = before ++ after ∧ InOrder rank holds layer left before ∧
      InOrder rank holds layer right after := by
  induction left generalizing items with
  | nil => exact ⟨[], items, rfl, .nil, listed⟩
  | cons entry rest ih =>
    cases listed with
    | leaf ranked listed =>
      obtain ⟨before, after, rfl, first, second⟩ := ih listed
      exact ⟨_ :: before, after, rfl, .leaf ranked first, second⟩
    | tree held listed =>
      obtain ⟨before, after, rfl, first, second⟩ := ih listed
      exact ⟨_ ++ before, after, by simp, .tree held first, second⟩

theorem inOrder_maybeTree {t : Option τ} (none : t = none → items = [])
    (some : ∀ s, t = some s → holds (layer - 1) s items) :
    InOrder rank holds layer (maybeTree t) items := by
  cases t with
  | none =>
    cases none rfl
    exact .nil
  | some s =>
    have one : InOrder rank holds layer [.tree s] (items ++ []) := .tree (some s rfl) .nil
    simpa using one

theorem inOrder_of_maybeTree {t : Option τ} (listed : InOrder rank holds layer (maybeTree t) items) :
    (t = none ∧ items = []) ∨ ∃ s, t = some s ∧ holds (layer - 1) s items := by
  cases t with
  | none =>
    cases listed
    exact .inl ⟨rfl, rfl⟩
  | some s =>
    rw [maybeTree_some] at listed
    cases listed with
    | tree held last =>
      cases last
      exact .inr ⟨s, rfl, by simpa using held⟩

theorem InOrder.of_tree_mem {t : τ} (listed : InOrder rank holds layer entries items)
    (mem : .tree t ∈ entries) : ∃ inner, holds (layer - 1) t inner := by
  induction listed with
  | nil => cases mem
  | leaf _ _ ih => exact ih ((List.mem_cons.mp mem).resolve_left (by simp))
  | tree held _ ih =>
    rcases List.mem_cons.mp mem with same | later
    · cases same
      exact ⟨_, held⟩
    · exact ih later

theorem InOrder.of_leaf_mem {key : κ} {value : ν}
    (listed : InOrder rank holds layer entries items) (mem : .leaf key value ∈ entries) :
    (rank key : Int) = layer := by
  induction listed with
  | nil => cases mem
  | leaf ranked _ ih =>
    rcases List.mem_cons.mp mem with same | later
    · cases same
      exact ranked
    · exact ih later
  | tree _ _ ih => exact ih ((List.mem_cons.mp mem).resolve_left (by simp))

theorem InOrder.ne_nil (full : ∀ layer t items, holds layer t items → items ≠ [])
    (listed : InOrder rank holds layer entries items) (some : entries ≠ []) : items ≠ [] := by
  cases listed with
  | nil => exact absurd rfl some
  | leaf => simp
  | tree held =>
    have inner := full _ _ _ held
    simp [inner]

theorem InOrder.ranked
    (within : ∀ layer t items, holds layer t items → ∀ item ∈ items, (rank item.1 : Int) ≤ layer)
    (listed : InOrder rank holds layer entries items) :
    ∀ item ∈ items, (rank item.1 : Int) ≤ layer := by
  induction listed with
  | nil => simp
  | leaf same _ ih =>
    intro item mem
    rcases List.mem_cons.mp mem with rfl | later
    · exact Int.le_of_eq same
    · exact ih item later
  | tree held _ ih =>
    intro item mem
    rcases List.mem_append.mp mem with inner | later
    · have := within _ _ _ held item inner
      omega
    · exact ih item later

end Items

section Grouping

variable {top : κ → Bool} {child : Items κ ν → τ}

/-- The entries that items make at a layer: leaves at the top of the layer, and the
runs of items between them as subtrees. The first argument is the run so far. -/
def group (top : κ → Bool) (child : Items κ ν → τ) : Items κ ν → Items κ ν → List (Entry τ κ ν)
  | run, [] => maybeTree (if run.isEmpty then none else some (child run))
  | run, (key, value) :: rest =>
    if top key then
      maybeTree (if run.isEmpty then none else some (child run)) ++
        .leaf key value :: group top child [] rest
    else group top child (run ++ [(key, value)]) rest

theorem group_run (inner rest : Items κ ν) : ∀ (run : Items κ ν),
    (∀ item ∈ inner, top item.1 = false) →
    group top child run (inner ++ rest) = group top child (run ++ inner) rest := by
  induction inner with
  | nil => intro run _; simp
  | cons item inner ih =>
    obtain ⟨key, value⟩ := item
    intro run low
    have first : top key = false := low (key, value) (by simp)
    rw [List.cons_append, group, first, if_neg (by simp),
      ih _ fun item mem => low item (by simp [mem])]
    simp

theorem group_eq {rank : κ → Nat} {layer : Int} {link : σ → τ} {holds : Int → σ → Items κ ν → Prop}
    {entries : List (Entry σ κ ν)} {items : Items κ ν}
    (tops : ∀ key, top key = true ↔ (rank key : Int) = layer)
    (runs : ∀ s inner, holds (layer - 1) s inner → link s = child inner ∧ inner ≠ [] ∧
      ∀ item ∈ inner, (rank item.1 : Int) ≤ layer - 1)
    (listed : InOrder rank holds layer entries items) (apart : Alternates entries) :
    group top child [] items = entries.map (Entry.mapTree link) := by
  induction listed with
  | nil => rfl
  | leaf ranked _ ih =>
    rw [group, if_pos ((tops _).mpr ranked), ih (alternates_leaf_cons.mp apart)]
    rfl
  | @tree s inner rest items held listed ih =>
    obtain ⟨first, restApart⟩ := alternates_tree_cons.mp apart
    obtain ⟨linked, full, low⟩ := runs s inner held
    have passed : ∀ item ∈ inner, top item.1 = false := by
      intro item mem
      have below := low item mem
      have differs : ¬top item.1 = true := fun isTop => by
        have same := (tops _).mp isTop
        omega
      simpa using differs
    have started : inner.isEmpty = false := by simpa using full
    rw [group_run inner items [] passed, List.nil_append]
    cases listed with
    | nil => simp [group, started, Entry.mapTree, linked]
    | leaf ranked _ =>
      have behind := ih restApart
      rw [group, if_pos ((tops _).mpr ranked)] at behind ⊢
      simpa [started, Entry.mapTree, linked] using behind
    | @tree next _ _ _ _ _ => exact absurd rfl (first next)

end Grouping

section SortedNode

variable [LinearOrder κ] {rank : κ → Nat} {holds : Int → τ → Items κ ν → Prop} {layer : Int}
  {entries : List (Entry τ κ ν)} {items : Items κ ν}

/-- In a sorted node everything before the cut is below the key, unless it lies in
the subtree at the cut, and nothing after the cut is. -/
structure Located (rank : κ → Nat) (holds : Int → τ → Items κ ν → Prop) (layer : Int)
    (items : Items κ ν) (bound : κ) (pre : List (Entry τ κ ν)) (mid : Option τ)
    (post : List (Entry τ κ ν)) (before middle after : Items κ ν) : Prop where
  items_eq : items = before ++ middle ++ after
  pre_items : InOrder rank holds layer pre before
  mid_items : InOrder rank holds layer (maybeTree mid) middle
  post_items : InOrder rank holds layer post after
  before_bound : Before before bound
  bound_le : ∀ item ∈ after, bound ≤ item.1

theorem InOrder.located {bound : κ} {pre post : List (Entry τ κ ν)} {mid : Option τ}
    (listed : InOrder rank holds layer entries items) (sorted : Sorted items)
    (cut : Cut entries bound pre mid post) :
    ∃ before middle after,
      Located rank holds layer items bound pre mid post before middle after := by
  rw [cut.entries_eq] at listed
  obtain ⟨outer, after, rfl, early, post_items⟩ := listed.of_append
  obtain ⟨before, middle, rfl, pre_items, mid_items⟩ := early.of_append
  refine ⟨before, middle, after, rfl, pre_items, mid_items, post_items, ?_, ?_⟩
  · rcases List.eq_nil_or_concat pre with rfl | ⟨start, last, rfl⟩
    · cases pre_items
      simp
    · rw [List.concat_eq_append] at pre_items cut
      rcases last with ⟨key, value⟩ | t
      · obtain ⟨earlier, final, rfl, -, lastItems⟩ := pre_items.of_append
        cases lastItems with
        | leaf _ rest =>
          cases rest
          have low := cut.small key value (by simp)
          have sortedBefore : Sorted (earlier ++ (key, value) :: []) :=
            (sorted_append.mp (sorted_append.mp sorted).1).1
          refine before_append.mpr ⟨fun item mem => ?_, by simpa [Before] using low⟩
          exact (sortedBefore.before_of_append item mem).trans low
      · exact absurd (by simp) (cut.endsInLeaf t)
  · rcases cut.stops with rfl | ⟨key, value, rest, rfl, high⟩
    · cases post_items
      simp
    · cases post_items with
      | leaf _ _ =>
        intro item mem
        rcases List.mem_cons.mp mem with rfl | later
        · exact high
        · have next := (sorted_cons.mp (sorted_append.mp sorted).2.1).1 item later
          exact high.trans next.le

end SortedNode

end MastopodFederation.Lib.LayeredEntries
