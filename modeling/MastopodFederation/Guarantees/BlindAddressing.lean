import MastopodFederation.Source.DeliveryPlanContract
import Mathlib.Data.List.Induction

/-!
# Blind addressing and inline contexts

What a key denotes follows definitions through any number of steps; the detector looks at a key,
at a prefix of exactly the namespace and at the last addressing definition of an alias, each
spelled out in one step (`Addressed`).
-/
namespace MastopodFederation.Guarantees.BlindAddressing
open Lib.LuaTable Source.DeliveryPlanContract

variable {text : String}

theorem afterNamespace_eq_some_iff {rest : String} :
    afterNamespace text = some rest ↔ text = activityStreamsNamespace ++ rest := by
  unfold afterNamespace
  constructor
  · intro found
    split at found
    next starts =>
      obtain ⟨tail, same⟩ := List.isPrefixOf_iff_prefix.mp starts
      cases found
      rw [← String.toList_inj, String.toList_append, String.toList_ofList, ← same,
        List.drop_left]
    next => cases found
  · rintro rfl
    rw [String.toList_append, if_pos (List.isPrefixOf_iff_prefix.mpr (List.prefix_append _ _)),
      List.drop_left, String.ofList_toList]

def Simple (text : String) : Prop := ':' ∉ text.toList

def compact (before after : String) : String := before ++ ":" ++ after

theorem toList_compact (before after : String) :
    (compact before after).toList = before.toList ++ ':' :: after.toList := by
  unfold compact
  rw [String.toList_append, String.toList_append, List.append_assoc]
  rfl

theorem splitCompact_eq_some_iff {before after : String} :
    splitCompact text = some (before, after) ↔
      before ≠ "" ∧ Simple before ∧ text = compact before after := by
  have parts : text.toList.takeWhile (fun c => decide (c ≠ ':')) ++
      text.toList.dropWhile (fun c => decide (c ≠ ':')) = text.toList :=
    List.takeWhile_append_dropWhile
  unfold splitCompact
  constructor
  · intro found
    dsimp only at found
    split at found
    next c tail rest =>
      split at found
      next => cases found
      next nonempty =>
        cases found
        have colon : c = ':' := by
          have head := List.head?_dropWhile_not (fun c => decide (c ≠ ':')) text.toList
          rw [rest] at head
          simpa using head
        refine ⟨fun empty => ?_, fun mem => ?_, ?_⟩
        · rw [← String.toList_inj, String.toList_ofList] at empty
          exact nonempty (by rw [empty]; rfl)
        · rw [String.toList_ofList] at mem
          have differs := List.all_eq_true.mp List.all_takeWhile _ mem
          simp at differs
        · subst colon
          rw [← String.toList_inj, toList_compact, String.toList_ofList, String.toList_ofList,
            ← rest, parts]
    next => cases found
  · rintro ⟨nonempty, simple, rfl⟩
    have each : ∀ c ∈ before.toList, decide (c ≠ ':') = true := by
      intro c mem
      rw [decide_eq_true_eq]
      rintro rfl
      exact simple mem
    have stops : ∀ rest : List Char, (':' :: rest).takeWhile (fun c => decide (c ≠ ':')) = [] :=
      fun rest => by simp
    rw [toList_compact, List.takeWhile_append_of_pos each, List.dropWhile_append_of_pos each, stops]
    have begins : before.toList ≠ [] := fun empty => nonempty (String.toList_inj.mp (by rw [empty]; rfl))
    simp [begins]

variable {term : String}

theorem simple_of_term (addressing : term ∈ addressingTerms) : Simple term := by
  simp only [addressingTerms, List.mem_cons, List.not_mem_nil, or_false] at addressing
  unfold Simple
  rcases addressing with rfl | rfl | rfl | rfl | rfl <;> decide

theorem addressingTerm_eq_some_iff :
    addressingTerm text = some term ↔ term ∈ addressingTerms ∧ text = term := by
  unfold addressingTerm
  constructor
  · intro found
    split at found
    next addressing =>
      cases found
      exact ⟨List.contains_iff_mem.mp addressing, rfl⟩
    next => cases found
  · rintro ⟨addressing, rfl⟩
    rw [if_pos (List.contains_iff_mem.mpr addressing)]

theorem splitCompact_simple (simple : Simple text) : splitCompact text = none := by
  cases split : splitCompact text with
  | none => rfl
  | some parts =>
    obtain ⟨before, after⟩ := parts
    obtain ⟨-, -, same⟩ := splitCompact_eq_some_iff.mp split
    refine absurd ?_ simple
    rw [same, toList_compact]
    exact List.mem_append_right _ List.mem_cons_self

theorem compactTerm_namespace (prefixes : String → Option String) (rest : String) :
    compactTerm prefixes (activityStreamsNamespace ++ rest) = none := by
  have split : splitCompact (activityStreamsNamespace ++ rest) =
      some ("https", "//www.w3.org/ns/activitystreams#" ++ rest) := by
    apply splitCompact_eq_some_iff.mpr
    refine ⟨by decide, by unfold Simple; decide, ?_⟩
    unfold compact
    rw [← String.append_assoc]
    rfl
  unfold compactTerm
  rw [split]
  dsimp only
  split
  · cases found : addressingTerm ("//www.w3.org/ns/activitystreams#" ++ rest) with
    | none => rfl
    | some term =>
      obtain ⟨addressing, same⟩ := addressingTerm_eq_some_iff.mp found
      have heads := congrArg (fun text => text.toList.head?) same
      rw [String.toList_append, List.head?_append,
        show "//www.w3.org/ns/activitystreams#".toList.head? = some '/' by decide,
        Option.some_or] at heads
      simp only [addressingTerms, List.mem_cons, List.not_mem_nil, or_false] at addressing
      rcases addressing with rfl | rfl | rfl | rfl | rfl <;> exact absurd heads (by decide)
  · rfl

theorem afterNamespace_simple (simple : Simple text) : afterNamespace text = none := by
  cases found : afterNamespace text with
  | none => rfl
  | some rest =>
    rw [afterNamespace_eq_some_iff] at found
    refine absurd ?_ simple
    rw [found, String.toList_append]
    exact List.mem_append_left _ (by decide)

def Bound (contexts : List Json) (before : String) : Prop :=
  before = "as" ∨ ∃ record, Json.obj record ∈ contexts ∧
    ∃ definition, (before, definition) ∈ record ∧
      rawDefinition definition = some activityStreamsNamespace

inductive Spelled (contexts : List Json) (term : String) : String → Prop where
  | term : Spelled contexts term term
  | iri : Spelled contexts term (activityStreamsNamespace ++ term)
  | compact {before : String} (nonempty : before ≠ "") (simple : Simple before)
      (bound : Bound contexts before) : Spelled contexts term (compact before term)

def Binds (contexts : List Json) (prefixes : String → Option String) : Prop :=
  ∀ before, prefixes before = some activityStreamsNamespace ↔ Bound contexts before

section OneStep
variable {contexts : List Json} {prefixes : String → Option String} {term text : String}

theorem compactTerm_eq_some_iff (binds : Binds contexts prefixes) :
    compactTerm prefixes text = some term ↔ term ∈ addressingTerms ∧
      ∃ before, before ≠ "" ∧ Simple before ∧ Bound contexts before ∧
        text = compact before term := by
  unfold compactTerm
  constructor
  · intro found
    split at found
    next before after split =>
      obtain ⟨nonempty, simple, same⟩ := splitCompact_eq_some_iff.mp split
      split at found
      next bound =>
        obtain ⟨addressing, rfl⟩ := addressingTerm_eq_some_iff.mp found
        exact ⟨addressing, before, nonempty, simple, (binds before).mp bound, same⟩
      next => cases found
    next => cases found
  · rintro ⟨addressing, before, nonempty, simple, bound, same⟩
    rw [splitCompact_eq_some_iff.mpr ⟨nonempty, simple, same⟩]
    dsimp only
    rw [if_pos ((binds before).mpr bound)]
    exact addressingTerm_eq_some_iff.mpr ⟨addressing, rfl⟩

theorem spelled_iff (binds : Binds contexts prefixes) :
    (match afterNamespace text with
      | some rest => addressingTerm rest
      | none => (compactTerm prefixes text).or (addressingTerm text)) = some term ↔
      term ∈ addressingTerms ∧ Spelled contexts term text := by
  constructor
  · intro found
    split at found
    next rest namespaced =>
      obtain ⟨addressing, rfl⟩ := addressingTerm_eq_some_iff.mp found
      rw [afterNamespace_eq_some_iff.mp namespaced]
      exact ⟨addressing, .iri⟩
    next =>
      rcases Option.or_eq_some_iff.mp found with byPrefix | ⟨-, plain⟩
      · obtain ⟨addressing, before, nonempty, simple, bound, rfl⟩ :=
          (compactTerm_eq_some_iff binds).mp byPrefix
        exact ⟨addressing, .compact nonempty simple bound⟩
      · obtain ⟨addressing, rfl⟩ := addressingTerm_eq_some_iff.mp plain
        exact ⟨addressing, .term⟩
  · rintro ⟨addressing, spelled⟩
    have plain := addressingTerm_eq_some_iff.mpr ⟨addressing, rfl⟩
    cases spelled with
    | term =>
      have none' : compactTerm prefixes term = none := by
        unfold compactTerm
        rw [splitCompact_simple (simple_of_term addressing)]
      rw [afterNamespace_simple (simple_of_term addressing), none', Option.none_or]
      exact plain
    | iri =>
      rw [afterNamespace_eq_some_iff.mpr rfl]
      exact plain
    | @compact before nonempty simple bound =>
      have byPrefix := (compactTerm_eq_some_iff binds).mpr
        ⟨addressing, before, nonempty, simple, bound, rfl⟩
      have outside : afterNamespace (compact before term) = none := by
        cases found : afterNamespace (compact before term) with
        | none => rfl
        | some rest =>
          rw [afterNamespace_eq_some_iff.mp found, compactTerm_namespace] at byPrefix
          cases byPrefix
      rw [outside, byPrefix]
      rfl

theorem resolve_eq_some_iff (binds : Binds contexts prefixes) {definition : Json} :
    resolveAddressingDefinition definition prefixes = some term ↔
      term ∈ addressingTerms ∧ ∃ raw, rawDefinition definition = some raw ∧
        Spelled contexts term raw := by
  unfold resolveAddressingDefinition
  cases read : rawDefinition definition with
  | none => simp
  | some raw =>
    refine (spelled_iff binds).trans ?_
    simp

end OneStep

def stateOf (contexts : List Json) : ContextState :=
  contexts.foldl addContextEntry initialContext

theorem stateOf_concat (contexts : List Json) (entry : Json) :
    stateOf (contexts ++ [entry]) = addContextEntry (stateOf contexts) entry := by
  unfold stateOf
  rw [List.foldl_append]
  rfl

theorem foldl_setKey {α : Type} (key : α → String) (value : α → Option String) (items : List α)
    (table : String → Option String) (read : String) :
    items.foldl (fun table item =>
        match value item with
        | some text => setKey table (key item) text
        | none => table) table read =
      (items.reverse.findSome? fun item => if key item = read then value item else none).or
        (table read) := by
  induction items generalizing table with
  | nil => rfl
  | cons item rest ih =>
    rw [List.foldl_cons, ih, List.reverse_cons, List.findSome?_append, Option.or_assoc]
    congr 1
    cases written : value item with
    | none => simp [written]
    | some text =>
      by_cases same : key item = read
      · simp [setKey, written, same]
      · simp [setKey, written, same, Ne.symm same]

theorem foldl_prefixes (record : List (String × Json)) (table : String → Option String)
    (before : String) :
    record.foldl (fun prefixes (key, definition) =>
        if rawDefinition definition = some activityStreamsNamespace then
          setKey prefixes key activityStreamsNamespace
        else prefixes) table before = some activityStreamsNamespace ↔
      table before = some activityStreamsNamespace ∨
        ∃ definition, (before, definition) ∈ record ∧
          rawDefinition definition = some activityStreamsNamespace := by
  induction record generalizing table with
  | nil => simp
  | cons entry rest ih =>
    obtain ⟨key, definition⟩ := entry
    rw [List.foldl_cons, ih]
    by_cases same : before = key <;>
      by_cases bound : rawDefinition definition = some activityStreamsNamespace <;>
      simp [setKey, same, bound]

variable {contexts : List Json} {record : List (String × Json)}

theorem bound_concat {before : String} :
    Bound (contexts ++ [.obj record]) before ↔ Bound contexts before ∨
      ∃ definition, (before, definition) ∈ record ∧
        rawDefinition definition = some activityStreamsNamespace := by
  unfold Bound
  simp only [List.mem_append, List.mem_singleton, Json.obj.injEq]
  constructor
  · rintro (standard | ⟨other, inside | rfl, bound⟩)
    · exact .inl (.inl standard)
    · exact .inl (.inr ⟨other, inside, bound⟩)
    · exact .inr bound
  · rintro ((standard | ⟨other, inside, bound⟩) | bound)
    · exact .inl standard
    · exact .inr ⟨other, .inl inside, bound⟩
    · exact .inr ⟨record, .inr rfl, bound⟩

theorem binds_stateOf (contexts : List Json) : Binds contexts (stateOf contexts).prefixes := by
  induction contexts using List.reverseRecOn with
  | nil =>
    intro before
    simp [stateOf, initialContext, setKey, Bound]
  | append_singleton contexts entry ih =>
    intro before
    rw [stateOf_concat]
    cases entry with
    | obj record =>
      unfold addContextEntry
      dsimp only
      rw [foldl_prefixes, ih before, bound_concat]
    | null | bool _ | num _ | str _ | arr _ =>
      rw [show addContextEntry (stateOf contexts) _ = stateOf contexts from rfl, ih before]
      simp [Bound]

structure Definition where
  contexts : List Json
  key : String
  definition : Json

def ownDefinitions (contexts : List Json) : Json → List Definition
  | .obj record => record.map fun (key, definition) => ⟨contexts, key, definition⟩
  | _ => []

def definitionsAfter (seen : List Json) : List Json → List Definition
  | [] => []
  | entry :: rest => ownDefinitions (seen ++ [entry]) entry ++ definitionsAfter (seen ++ [entry]) rest

def definitions (contexts : List Json) : List Definition := definitionsAfter [] contexts

theorem definitionsAfter_concat (seen contexts : List Json) (entry : Json) :
    definitionsAfter seen (contexts ++ [entry]) =
      definitionsAfter seen contexts ++ ownDefinitions (seen ++ contexts ++ [entry]) entry := by
  induction contexts generalizing seen with
  | nil => simp [definitionsAfter]
  | cons first rest ih =>
    rw [List.cons_append, definitionsAfter, ih, definitionsAfter, List.append_assoc,
      List.append_assoc, List.append_assoc]
    simp

def definedTerm (d : Definition) : Option String :=
  resolveAddressingDefinition d.definition (stateOf d.contexts).prefixes

theorem aliases_stateOf (contexts : List Json) (key : String) :
    (stateOf contexts).aliases key =
      (definitions contexts).reverse.findSome? fun d =>
        if d.key = key then definedTerm d else none := by
  induction contexts using List.reverseRecOn with
  | nil => rfl
  | append_singleton contexts entry ih =>
    rw [definitions, definitionsAfter_concat, List.reverse_append, List.findSome?_append,
      List.nil_append, ← definitions, ← ih, stateOf_concat]
    cases entry with
    | obj record =>
      have last := foldl_setKey (fun e : String × Json => e.1)
        (fun e => resolveAddressingDefinition e.2 (stateOf (contexts ++ [.obj record])).prefixes)
        record (stateOf contexts).aliases key
      rw [ownDefinitions, ← List.map_reverse, List.findSome?_map]
      refine Eq.trans ?_ last
      rw [stateOf_concat]
      rfl
    | null | bool _ | num _ | str _ | arr _ => rfl

def Gives (d : Definition) (term : String) : Prop :=
  term ∈ addressingTerms ∧ ∃ raw, rawDefinition d.definition = some raw ∧
    Spelled d.contexts term raw

theorem definedTerm_eq_some_iff {d : Definition} : definedTerm d = some term ↔ Gives d term :=
  resolve_eq_some_iff (binds_stateOf d.contexts)

/-- The key spells the term out, or it spells none and the last of its definitions that
spells a term out spells this one. -/
inductive Addressed (contexts : List Json) (term key : String) : Prop where
  | spelled (spells : Spelled contexts term key)
  | aliased {earlier later : List Definition} {d : Definition}
      (outside : ∀ rest, key ≠ activityStreamsNamespace ++ rest)
      (unspelled : ∀ other ∈ addressingTerms, ¬ Spelled contexts other key)
      (split : definitions contexts = earlier ++ d :: later) (same : d.key = key)
      (gives : Gives d term) (last : ∀ next ∈ later, next.key = key → ∀ other, ¬ Gives next other)

variable {key : String}

theorem aliases_eq_some_iff : (stateOf contexts).aliases key = some term ↔
      ∃ earlier d later, definitions contexts = earlier ++ d :: later ∧ d.key = key ∧
        Gives d term ∧ ∀ next ∈ later, next.key = key → ∀ other, ¬ Gives next other := by
  have none_iff : ∀ d : Definition, (if d.key = key then definedTerm d else none) = none ↔
      (d.key = key → ∀ other, ¬ Gives d other) := by
    intro d
    split
    next same =>
      rw [Option.eq_none_iff_forall_ne_some]
      simp only [same, forall_const, ← definedTerm_eq_some_iff]
    next other => simp [other]
  rw [aliases_stateOf, List.findSome?_eq_some_iff]
  constructor
  · rintro ⟨after, d, before, split, found, others⟩
    refine ⟨before.reverse, d, after.reverse, ?_, ?_⟩
    · rw [← List.reverse_reverse (definitions contexts), split]
      simp
    · split at found
      next same =>
        refine ⟨same, definedTerm_eq_some_iff.mp found, fun next mem => ?_⟩
        exact (none_iff next).mp (others next (List.mem_reverse.mp mem))
      next => cases found
  · rintro ⟨earlier, d, later, split, same, gives, last⟩
    refine ⟨later.reverse, d, earlier.reverse, ?_, ?_, fun next mem => ?_⟩
    · rw [split]
      simp
    · rw [if_pos same]
      exact definedTerm_eq_some_iff.mpr gives
    · exact (none_iff next).mpr (last next (List.mem_reverse.mp mem))

theorem canonical_eq_some_iff : canonicalAddressingTerm key (stateOf contexts) = some term ↔
      term ∈ addressingTerms ∧ Addressed contexts term key := by
  have binds := binds_stateOf contexts
  unfold canonicalAddressingTerm
  split
  next plain =>
    rw [List.contains_iff_mem] at plain
    have own : ∀ other, other ∈ addressingTerms ∧ Spelled contexts other key ↔ key = other := by
      intro other
      rw [← spelled_iff binds, afterNamespace_simple (simple_of_term plain)]
      have uncompact : compactTerm (stateOf contexts).prefixes key = none := by
        unfold compactTerm
        rw [splitCompact_simple (simple_of_term plain)]
      rw [uncompact, addressingTerm_eq_some_iff.mpr ⟨plain, rfl⟩]
      simp
    constructor
    · intro same
      obtain ⟨addressing, spells⟩ := (own term).mpr (Option.some.inj same)
      exact ⟨addressing, .spelled spells⟩
    · rintro ⟨addressing, spells | ⟨_, unspelled, _, _, _, _⟩⟩
      · exact congrArg some ((own term).mp ⟨addressing, spells⟩)
      · exact absurd .term (unspelled key plain)
  next special =>
    rw [List.contains_iff_mem] at special
    cases namespaced : afterNamespace key with
    | some rest =>
      have same := afterNamespace_eq_some_iff.mp namespaced
      have spells := @spelled_iff contexts _ term key binds
      rw [namespaced] at spells
      refine spells.trans ⟨fun found => ⟨found.1, .spelled found.2⟩, ?_⟩
      rintro ⟨addressing, spelled | ⟨outside, _, _, _, _, _⟩⟩
      · exact ⟨addressing, spelled⟩
      · exact absurd same (outside rest)
    | none =>
      have spells : ∀ other, compactTerm (stateOf contexts).prefixes key = some other ↔
          other ∈ addressingTerms ∧ Spelled contexts other key := by
        intro other
        rw [← spelled_iff binds, namespaced]
        have unplain : addressingTerm key = none := by
          unfold addressingTerm
          rw [if_neg (by rw [List.contains_iff_mem]; exact special)]
        rw [unplain]
        simp
      have outside : ∀ rest, key ≠ activityStreamsNamespace ++ rest := by
        intro rest same
        rw [afterNamespace_eq_some_iff.mpr same] at namespaced
        cases namespaced
      dsimp only
      rw [Option.or_eq_some_iff, spells, aliases_eq_some_iff]
      constructor
      · rintro (⟨addressing, spelled⟩ | ⟨none', earlier, d, later, split, same, gives, last⟩)
        · exact ⟨addressing, .spelled spelled⟩
        · refine ⟨gives.1, .aliased outside (fun other addressing spelled => ?_) split same gives last⟩
          rw [(spells other).mpr ⟨addressing, spelled⟩] at none'
          cases none'
      · rintro ⟨addressing, spelled | @⟨earlier, later, d, _, unspelled, split, same, gives, last⟩⟩
        · exact .inl ⟨addressing, spelled⟩
        · refine .inr ⟨?_, earlier, d, later, split, same, gives, last⟩
          rw [Option.eq_none_iff_forall_ne_some]
          intro other found
          obtain ⟨addressing, spelled⟩ := (spells other).mp found
          exact unspelled other addressing spelled

structure Site where
  contexts : List Json
  record : List (String × Json)

mutual
def sites (inherited : List Json) : Json → List Site
  | .arr items => itemSites inherited items
  | .obj record =>
    let contexts := inherited ++ contextEntries (record.lookup "@context")
    ⟨contexts, record⟩ :: valueSites contexts record
  | _ => []

def itemSites (inherited : List Json) : List Json → List Site
  | [] => []
  | item :: rest => sites inherited item ++ itemSites inherited rest

def valueSites (contexts : List Json) : List (String × Json) → List Site
  | [] => []
  | (_, value) :: rest => sites contexts value ++ valueSites contexts rest
end

def blindTerms : List String := ["bto", "bcc"]

def BlindSite (site : Site) : Prop :=
  ∃ entry ∈ site.record, ∃ term ∈ blindTerms, Addressed site.contexts term entry.1

theorem isBlind_iff : isBlind (canonicalAddressingTerm key (stateOf contexts)) = true ↔
      ∃ term ∈ blindTerms, Addressed contexts term key := by
  have each : ∀ term ∈ blindTerms, canonicalAddressingTerm key (stateOf contexts) = some term ↔
      Addressed contexts term key := by
    intro term mem
    have addressing : term ∈ addressingTerms := by
      simp only [blindTerms, List.mem_cons, List.not_mem_nil, or_false] at mem
      rcases mem with rfl | rfl <;> decide
    rw [canonical_eq_some_iff, and_iff_right addressing]
  unfold isBlind
  rw [Bool.or_eq_true, decide_eq_true_eq, decide_eq_true_eq,
    each "bto" (by decide), each "bcc" (by decide)]
  simp [blindTerms]

theorem buildContextState_stateOf (inherited : List Json) (context : Option Json) :
    buildContextState context (stateOf inherited) =
      stateOf (inherited ++ contextEntries context) := by
  unfold buildContextState stateOf
  rw [List.foldl_append]

mutual
theorem contains_iff (inherited : List Json) (value : Json) :
    containsBlindAudienceFields (stateOf inherited) value = true ↔
      ∃ site ∈ sites inherited value, BlindSite site := by
  cases value with
  | null | bool _ | num _ | str _ => simp [containsBlindAudienceFields, sites]
  | arr items =>
    unfold containsBlindAudienceFields sites
    exact items_iff inherited items
  | obj record =>
    unfold containsBlindAudienceFields sites
    dsimp only
    rw [buildContextState_stateOf, Bool.or_eq_true, values_iff, List.any_eq_true]
    simp only [isBlind_iff, List.mem_cons, exists_eq_or_imp]
    exact Iff.rfl

theorem items_iff (inherited : List Json) (items : List Json) :
    blindItems (stateOf inherited) items = true ↔
      ∃ site ∈ itemSites inherited items, BlindSite site := by
  cases items with
  | nil => simp [blindItems, itemSites]
  | cons item rest =>
    unfold blindItems itemSites
    rw [Bool.or_eq_true, contains_iff, items_iff]
    simp only [List.mem_append, or_and_right, exists_or]

theorem values_iff (contexts : List Json) (record : List (String × Json)) :
    blindValues (stateOf contexts) record = true ↔
      ∃ site ∈ valueSites contexts record, BlindSite site := by
  cases record with
  | nil => simp [blindValues, valueSites]
  | cons entry rest =>
    obtain ⟨key, value⟩ := entry
    unfold blindValues valueSites
    rw [Bool.or_eq_true, contains_iff, values_iff]
    simp only [List.mem_append, or_and_right, exists_or]
end

/-- Two readings of "defined in the contexts in force": a redefinition stands beside the
earlier one, or replaces it, and then null clears the contexts before it. -/
inductive Reading where
  | beside
  | replacing

def isNull : Json → Bool
  | .null => true
  | _ => false

def definitionIn (key : String) : Json → Option Json
  | .obj record => record.lookup key
  | _ => none

def Defines (reading : Reading) (contexts : List Json) (key raw : String) : Prop :=
  match reading with
  | .beside => ∃ record, Json.obj record ∈ contexts ∧ ∃ definition, (key, definition) ∈ record ∧
      rawDefinition definition = some raw
  | .replacing =>
    ((contexts.reverse.takeWhile (!isNull ·)).findSome? (definitionIn key)).bind rawDefinition =
      some raw

inductive Denotes (defines : String → String → Prop) (term : String) : String → Prop where
  | term : Denotes defines term term
  | iri : Denotes defines term (activityStreamsNamespace ++ term)
  | compact {before after iri : String} (mapped : defines before iri)
      (joined : iri ++ after = activityStreamsNamespace ++ term) :
      Denotes defines term (compact before after)
  | defined {key raw : String} (definition : defines key raw) (rest : Denotes defines term raw) :
      Denotes defines term key

def Discloses (reading : Reading) (activity : List (String × Json)) : Prop :=
  ∃ site ∈ sites [] (.obj activity), ∃ entry ∈ site.record, ∃ term ∈ blindTerms,
    Denotes (Defines reading site.contexts) term entry.1

def Rejected (env : Environment) (activity : List (String × Json)) : Prop :=
  containsBlindAudienceFields initialContext (.obj activity) = true ∧
    ∀ plan : List (String × Json), plan.lookup "activity" = some (.obj activity) →
      safeParseActivityPubDeliveryPlanV1 env (.obj plan) = none

theorem activity_of_planShape {env : Environment} {plan : Plan}
    (parsed : planShape env (.obj record) = some plan) :
    record.lookup "activity" = some (.obj plan.activity) := by
  unfold planShape at parsed
  dsimp only at parsed
  split at parsed
  · cases parsed
  · simp only [Option.bind_eq_bind, Option.bind_eq_some_iff] at parsed
    obtain ⟨_, _, _, _, _, _, _, _, parsed⟩ := parsed
    split at parsed
    next activity present =>
      simp only [Option.bind_some, Option.bind_eq_some_iff] at parsed
      obtain ⟨_, _, _, _, _, _, built⟩ := parsed
      cases built
      exact present
    next => cases parsed

theorem safeParse_of_blind (env : Environment) {activity plan : List (String × Json)}
    (found : containsBlindAudienceFields initialContext (.obj activity) = true)
    (embeds : plan.lookup "activity" = some (.obj activity)) :
    safeParseActivityPubDeliveryPlanV1 env (.obj plan) = none := by
  unfold safeParseActivityPubDeliveryPlanV1
  cases shape : planShape env (.obj plan) with
  | none => rfl
  | some parsed =>
    have kept : parsed.activity = activity := by
      have embedded := activity_of_planShape shape
      rw [embeds] at embedded
      cases embedded
      rfl
    have issues : refinePlan env parsed ≠ [] := by
      unfold refinePlan issueIf
      rw [kept, found]
      simp
    dsimp only
    rw [if_neg (by simpa using issues)]

/-- Blind addressing is rejected exactly where some key is addressed as a blind term, if
any key denotes one. -/
theorem blind_rejected_iff (env : Environment) (reading : Reading)
    (activity : List (String × Json)) :
    (Discloses reading activity → Rejected env activity) ↔
      ¬ Discloses reading activity ∨ ∃ site ∈ sites [] (.obj activity), BlindSite site := by
  have detects : containsBlindAudienceFields initialContext (.obj activity) = true ↔
      ∃ site ∈ sites [] (.obj activity), BlindSite site := contains_iff [] (.obj activity)
  rw [imp_iff_not_or, ← detects]
  refine or_congr_right ⟨fun rejected => rejected.1, fun found => ⟨found, fun plan embeds => ?_⟩⟩
  exact safeParse_of_blind env found embeds

def splitActivity : List (String × Json) :=
  [("@context", .obj [("p", .str "https://www.w3.org/ns/activitystreams#b")]),
   ("p:to", .str "https://b.example/bob")]

theorem discloses_splitActivity (reading : Reading) : Discloses reading splitActivity := by
  have mapped : Defines reading
      [.obj [("p", .str "https://www.w3.org/ns/activitystreams#b")]] "p"
      "https://www.w3.org/ns/activitystreams#b" := by
    cases reading with
    | beside => exact ⟨_, List.mem_singleton.mpr rfl, _, List.mem_singleton.mpr rfl, rfl⟩
    | replacing => rfl
  have written : compact "p" "to" = "p:to" := by decide
  have denoted : Denotes (Defines reading _) "bto" (compact "p" "to") :=
    .compact mapped (by decide)
  rw [written] at denoted
  exact ⟨_, List.mem_cons_self, ("p:to", _), List.mem_cons_of_mem _ List.mem_cons_self, "bto",
    List.mem_cons_self, denoted⟩

theorem split_undetected :
    ¬ ∀ (env : Environment) (reading : Reading) (activity : List (String × Json)),
      Discloses reading activity → Rejected env activity := by
  intro claimed
  have env : Environment := ⟨fun _ => none, id, id, id, fun _ _ => true⟩
  have rejected := claimed env .replacing splitActivity (discloses_splitActivity .replacing)
  have undetected : containsBlindAudienceFields initialContext (.obj splitActivity) = false := by
    decide +kernel
  have detected := rejected.1
  rw [undetected] at detected
  cases detected

end MastopodFederation.Guarantees.BlindAddressing
