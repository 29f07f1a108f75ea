import Mathlib.Data.List.Infix
import Mathlib.Data.List.Nodup
import MastopodFederation.Source.FedifyKvAdapter

/-!
# What the KV store lists

Keys are encoded without loss, and a listing has every stored entry under its components and
no other. It has each of them once exactly when no page returns a key that an earlier one,
or the same one, has returned.
-/
namespace MastopodFederation.Guarantees.KvListing
open Lib.UriComponent Source.FedifyKvAdapter

variable {ns : RedisKey}

variable {key : KvKey}

theorem splitOn_encoded (some : key ≠ []) :
    ([':'].intercalate (key.map encoded)).splitOn ':' = key.map encoded := by
  apply List.splitOn_intercalate _ _ (by simpa using some)
  intro part listed
  obtain ⟨component, -, rfl⟩ := List.mem_map.mp listed
  exact colon_not_mem component

theorem decodeKey_encodeKey (some : key ≠ []) : decodeKey ns (encodeKey ns key) = .some key := by
  have parts : (key.map encoded).mapM (fun part => decodeURIComponent (String.ofList part))
      = .some key := by
    clear some
    induction key with
    | nil => rfl
    | cons component rest ih => simp [encoded, ih]
  have rest : (encodeKey ns key).drop (ns.length + 1) = [':'].intercalate (key.map encoded) := by
    simp [encodeKey]
  rw [decodeKey, rest, splitOn_encoded some, parts]

theorem encodeKey_inj {other : KvKey} (some : key ≠ []) (some' : other ≠ [])
    (same : encodeKey ns key = encodeKey ns other) : key = other := by
  have decoded : decodeKey ns (encodeKey ns key) = .some key := decodeKey_encodeKey some
  rw [same, decodeKey_encodeKey some'] at decoded
  exact (Option.some.inj decoded).symm

theorem encoded_injective : Function.Injective encoded := fun _ _ same =>
  encodeURIComponent_injective (String.toList_inj.mp same)

theorem encodeKey_append_isPrefix {start : KvKey} (some : start ≠ []) (some' : key ≠ []) :
    encodeKey ns start ++ [':'] <+: encodeKey ns key ↔ ∃ rest ≠ [], key = start ++ rest := by
  constructor
  · rintro ⟨tail, joined⟩
    have parts : [':'].intercalate (start.map encoded) ++ ':' :: tail
        = [':'].intercalate (key.map encoded) := by
      simpa [encodeKey] using joined
    have split := congrArg (List.splitOn ':') parts
    rw [List.splitOn_append_cons_self, splitOn_encoded some, splitOn_encoded some'] at split
    have shorter : start.map encoded <+: key.map encoded := ⟨_, split⟩
    obtain ⟨rest, rfl⟩ := (List.prefix_map_iff_of_injective encoded_injective).mp shorter
    refine ⟨rest, ?_, rfl⟩
    rintro rfl
    rw [List.append_nil] at split
    exact List.splitOn_ne_nil _ _ (List.append_right_eq_self.mp split)
  · rintro ⟨rest, more, rfl⟩
    refine ⟨[':'].intercalate (rest.map encoded), ?_⟩
    have split : ([':'].intercalate (start.map encoded)
        ++ ':' :: [':'].intercalate (rest.map encoded)).splitOn ':'
          = ([':'].intercalate ((start ++ rest).map encoded)).splitOn ':' := by
      rw [List.splitOn_append_cons_self, splitOn_encoded some, splitOn_encoded more,
        splitOn_encoded some', List.map_append]
    have parts := congrArg [':'].intercalate split
    rw [List.intercalate_splitOn, List.intercalate_splitOn] at parts
    rw [encodeKey, encodeKey, ← parts]
    simp

theorem eligible_encodeKey (start : Option KvKey) (some : key ≠ []) :
    eligible ns start (encodeKey ns key) = true ↔ start.getD [] <+: key := by
  unfold eligible
  split
  · simp [startKey, encodeKey]
  · simp [startKey, encodeKey]
  · next start full =>
    have more : start ≠ [] := by rintro rfl; exact full rfl
    have own : startKey ns (.some start) = encodeKey ns start := by
      cases start with
      | nil => exact absurd rfl more
      | cons => rfl
    rw [own, Bool.or_eq_true, decide_eq_true_eq, List.isPrefixOf_iff_prefix,
      encodeKey_append_isPrefix more some]
    constructor
    · rintro (same | ⟨rest, -, rfl⟩)
      · exact encodeKey_inj some more same ▸ List.prefix_rfl
      · exact List.prefix_append _ _
    · rintro ⟨rest, rfl⟩
      cases rest with
      | nil => exact .inl (by simp)
      | cons component rest => exact .inr ⟨_, by simp, rfl⟩

theorem globMatches_escaped (text key : RedisKey) :
    globMatches (escapeScanPattern text ++ ['*']) key = true ↔ text <+: key := by
  induction text generalizing key with
  | nil =>
    have all : key.tails.any (globMatches []) = true :=
      List.any_eq_true.mpr ⟨[], (List.mem_tails _ _).mpr List.nil_suffix, rfl⟩
    simpa [escapeScanPattern, globMatches] using all
  | cons c text ih =>
    have step : globMatches (escapeScanPattern (c :: text) ++ ['*']) key
        = match key with
          | [] => false
          | d :: key => c = d && globMatches (escapeScanPattern text ++ ['*']) key := by
      unfold escapeScanPattern
      rw [List.flatMap_cons]
      split
      · cases key <;> simp [globMatches]
      · next plain =>
        simp only [List.mem_cons, List.not_mem_nil, or_false, not_or] at plain
        cases key <;> simp [globMatches, plain]
    rw [step]
    cases key with
    | nil => simp
    | cons d key => simp [ih, List.cons_prefix_cons]

theorem startKey_isPrefix {start : Option KvKey} {rawKey : RedisKey}
    (chosen : eligible ns start rawKey = true) : startKey ns start <+: rawKey := by
  unfold eligible at chosen
  split at chosen
  · exact List.isPrefixOf_iff_prefix.mp chosen
  · exact List.isPrefixOf_iff_prefix.mp chosen
  · rw [Bool.or_eq_true, decide_eq_true_eq, List.isPrefixOf_iff_prefix] at chosen
    rcases chosen with same | longer
    · exact same ▸ List.prefix_rfl
    · exact (List.prefix_append _ _).trans longer

section
variable {V : Type} {held : RedisKey → Option String} {parse : String → V} {start : Option KvKey}

def Owned (ns : RedisKey) (held : RedisKey → Option String) : Prop :=
  ∀ rawKey, (held rawKey).isSome → ns ++ [':'] <+: rawKey →
    ∃ key ≠ [], rawKey = encodeKey ns key

def Scanned (ns : RedisKey) (held : RedisKey → Option String) (start : Option KvKey)
    (pages : List (List RedisKey)) : Prop :=
  ∀ rawKey, (held rawKey).isSome → globMatches (scanPattern ns start) rawKey →
    ∃ page ∈ pages, rawKey ∈ page

def covered (ns : RedisKey) (held : RedisKey → Option String) (start : Option KvKey)
    (rawKey : RedisKey) : Bool := eligible ns start rawKey && (held rawKey).isSome

def Lists (ns : RedisKey) (held : RedisKey → Option String) (parse : String → V)
    (start : Option KvKey) (entries : List (KvKey × V)) : Prop :=
  ∀ key value, (key, value) ∈ entries ↔
    key ≠ [] ∧ start.getD [] <+: key ∧ (held (encodeKey ns key)).map parse = some value

theorem covered_iff (owned : Owned ns held) {rawKey : RedisKey} :
    covered ns held start rawKey = true ↔ ∃ key ≠ [], rawKey = encodeKey ns key ∧
      start.getD [] <+: key ∧ (held rawKey).isSome := by
  rw [covered, Bool.and_eq_true]
  constructor
  · rintro ⟨chosen, stored⟩
    have inside : ns ++ [':'] <+: startKey ns start := by
      unfold startKey
      split <;> simp [encodeKey]
    obtain ⟨key, some, rfl⟩ := owned rawKey stored (inside.trans (startKey_isPrefix chosen))
    exact ⟨key, some, rfl, (eligible_encodeKey start some).mp chosen, stored⟩
  · rintro ⟨key, some, rfl, below, stored⟩
    exact ⟨(eligible_encodeKey start some).mpr below, stored⟩

def entryOf (ns : RedisKey) (held : RedisKey → Option String) (parse : String → V)
    (rawKey : RedisKey) : KvKey × V :=
  ((decodeKey ns rawKey).getD [], parse ((held rawKey).getD ""))

theorem listPage_eq (owned : Owned ns held) (page : List RedisKey) :
    listPage ns held parse start page
      = some ((page.filter (covered ns held start)).map (entryOf ns held parse)) := by
  unfold listPage
  induction page with
  | nil => rfl
  | cons rawKey rest ih =>
    cases chosen : eligible ns start rawKey with
    | false => simpa [covered, chosen] using ih
    | true =>
      cases stored : held rawKey with
      | none => simpa [covered, chosen, stored] using ih
      | some raw =>
        have all : covered ns held start rawKey = true := by simp [covered, chosen, stored]
        obtain ⟨key, filled, rfl, -⟩ := (covered_iff owned).mp all
        rw [List.filter_cons_of_pos chosen, List.filter_cons_of_pos all, List.filterMap_cons, stored]
        simp [ih, entryOf, stored, decodeKey_encodeKey filled]

theorem list_eq (owned : Owned ns held) (pages : List (List RedisKey)) :
    list ns held parse start pages
      = some ((pages.flatten.filter (covered ns held start)).map (entryOf ns held parse)) := by
  have listed : pages.mapM (listPage ns held parse start)
      = some (pages.map fun page => (page.filter (covered ns held start)).map
          (entryOf ns held parse)) := by
    induction pages with
    | nil => rfl
    | cons page rest ih => simp [listPage_eq owned, ih]
  rw [list, listed]
  simp [List.filter_flatten, List.map_flatten, Function.comp_def]

theorem nodup_keys_iff (owned : Owned ns held) (pages : List (List RedisKey)) :
    (((pages.flatten.filter (covered ns held start)).map (entryOf ns held parse)).map
        Prod.fst).Nodup ↔ (pages.flatten.filter (covered ns held start)).Nodup := by
  rw [List.map_map]
  constructor
  · exact List.Nodup.of_map _
  · apply List.Nodup.map_on
    intro rawKey first other second same
    obtain ⟨key, some, rfl, -⟩ := (covered_iff owned).mp (List.mem_filter.mp first).2
    obtain ⟨key', some', rfl, -⟩ := (covered_iff owned).mp (List.mem_filter.mp second).2
    simp only [Function.comp_def, entryOf, decodeKey_encodeKey some, decodeKey_encodeKey some',
      Option.getD_some] at same
    rw [same]

theorem lists_covered (owned : Owned ns held) {pages : List (List RedisKey)}
    (scanned : Scanned ns held start pages) :
    Lists ns held parse start
      ((pages.flatten.filter (covered ns held start)).map (entryOf ns held parse)) := by
  intro key value
  rw [List.mem_map]
  constructor
  · rintro ⟨rawKey, found, entry⟩
    obtain ⟨key', some, rfl, below, stored⟩ := (covered_iff owned).mp (List.mem_filter.mp found).2
    obtain ⟨raw, stored⟩ := Option.isSome_iff_exists.mp stored
    simp only [entryOf, decodeKey_encodeKey some, stored, Option.getD_some, Prod.mk.injEq] at entry
    obtain ⟨rfl, rfl⟩ := entry
    exact ⟨some, below, by rw [stored]; rfl⟩
  · rintro ⟨some, below, read⟩
    obtain ⟨raw, stored, rfl⟩ := Option.map_eq_some_iff.mp read
    have present : (held (encodeKey ns key)).isSome := by rw [stored]; rfl
    have chosen : eligible ns start (encodeKey ns key) = true :=
      (eligible_encodeKey start some).mpr below
    obtain ⟨page, listed, found⟩ := scanned _ present
      ((globMatches_escaped _ _).mpr (startKey_isPrefix chosen))
    refine ⟨encodeKey ns key, List.mem_filter.mpr ⟨List.mem_flatten.mpr ⟨page, listed, found⟩,
      (covered_iff owned).mpr ⟨key, some, rfl, below, present⟩⟩, ?_⟩
    simp [entryOf, decodeKey_encodeKey some, stored]

/-- Keys are faithful, and a listing has each of its entries once exactly when the SCAN returns
no stored key under the start twice. -/
theorem listed_once_iff (owned : Owned ns held) {pages : List (List RedisKey)}
    (scanned : Scanned ns held start pages) :
    (∀ key ≠ [], decodeKey ns (encodeKey ns key) = some key) ∧
    (∀ key ≠ [], ∀ other ≠ [], encodeKey ns key = encodeKey ns other → key = other) ∧
    ((∃ entries, list ns held parse start pages = some entries ∧
        Lists ns held parse start entries ∧ (entries.map Prod.fst).Nodup) ↔
      (pages.flatten.filter (covered ns held start)).Nodup) := by
  refine ⟨fun key some => decodeKey_encodeKey some,
    fun key some other some' same => encodeKey_inj some some' same, ?_⟩
  have listed : list ns held parse start pages = _ := list_eq owned pages
  have distinct : (((pages.flatten.filter (covered ns held start)).map
      (entryOf ns held parse)).map Prod.fst).Nodup ↔ _ := nodup_keys_iff owned pages
  rw [← distinct]
  constructor
  · rintro ⟨entries, returned, -, once⟩
    rw [listed] at returned
    cases returned
    exact once
  · exact fun once => ⟨_, listed, lists_covered owned scanned, once⟩

end

def oneEntry (rawKey : RedisKey) : Option String :=
  if rawKey = ['n', ':', 'a'] then some "1" else none

theorem oneEntry_owned : Owned ['n'] oneEntry := by
  intro rawKey stored _
  unfold oneEntry at stored
  split at stored
  · next own => exact ⟨["a"], by simp, own.trans (by decide)⟩
  · cases stored

theorem oneEntry_scanned (times : Nat) :
    Scanned ['n'] oneEntry none (List.replicate (times + 1) [['n', ':', 'a']]) := by
  intro rawKey stored _
  unfold oneEntry at stored
  split at stored
  · next own => exact ⟨[['n', ':', 'a']], by simp, by simp [own]⟩
  · cases stored

theorem listed_once_iff_oneEntry : Owned ['n'] oneEntry ∧
    Scanned ['n'] oneEntry none [[['n', ':', 'a']]] ∧
    ((∃ entries, list ['n'] oneEntry id none [[['n', ':', 'a']]] = some entries ∧
        Lists ['n'] oneEntry id none entries ∧ (entries.map Prod.fst).Nodup) ↔
      ([[['n', ':', 'a']]].flatten.filter (covered ['n'] oneEntry none)).Nodup) :=
  ⟨oneEntry_owned, oneEntry_scanned 0,
    (listed_once_iff oneEntry_owned (oneEntry_scanned 0)).2.2⟩

/-- The SCAN returns the key on two pages, and the entry is yielded twice. -/
theorem entry_repeated : Scanned ['n'] oneEntry none [[['n', ':', 'a']], [['n', ':', 'a']]] ∧
    ¬ ∃ entries, list ['n'] oneEntry id none [[['n', ':', 'a']], [['n', ':', 'a']]]
      = some entries ∧ (entries.map Prod.fst).Nodup := by
  refine ⟨oneEntry_scanned 1, ?_⟩
  rintro ⟨entries, returned, once⟩
  rw [list_eq oneEntry_owned, Option.some.injEq] at returned
  rw [← returned, nodup_keys_iff oneEntry_owned] at once
  revert once
  decide

end MastopodFederation.Guarantees.KvListing
