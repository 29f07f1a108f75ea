import MastopodFederation.Source.Hashtags
import MastopodFederation.Lib.Texts

/-!
# Facets inside the text of a post

The record's text is the longest run of graphemes within both limits. Its facets cover the
hashtags of the body in their order; they lie inside the text where every hashtag of the
body that yields a tag ends within the limits.
-/
namespace MastopodFederation.Guarantees.FacetBounds
open Source.Hashtags
open Source.SigningService (whitespace)

def Fits (graphemes : List Text) (count : Nat) : Prop :=
  count ≤ graphemes.length ∧ count ≤ maxGraphemes ∧
    byteLength (graphemes.take count).flatten ≤ maxUtf8Bytes

def Longest (graphemes : List Text) (text : Text) : Prop :=
  ∃ count, Fits graphemes count ∧ text = (graphemes.take count).flatten ∧
    ∀ other, Fits graphemes other → other ≤ count

def Covers (u : Unicode) (body : Text) (facet : Facet) : Prop :=
  ∃ before raw after, body = before ++ (raw ++ after) ∧ matchAt (raw ++ after) = some raw ∧
    normalizeAtprotoTag u raw = some facet.tag ∧ facet.byteStart = byteLength before ∧
    facet.byteEnd = byteLength (before ++ raw)

structure SoundRecord (u : Unicode) (body : Text) (record : PostRecord) : Prop where
  inside : ∀ facet ∈ record.facets.getD [],
    facet.byteStart < facet.byteEnd ∧ facet.byteEnd ≤ byteLength record.text
  covers : ∀ facet ∈ record.facets.getD [], Covers u body facet
  ordered : (record.facets.getD []).Pairwise fun one next => one.byteEnd ≤ next.byteStart
  longest : Longest (u.segment body) record.text

def HashtagsFit (u : Unicode) (body : Text) : Prop :=
  ∀ found ∈ matchAll [] 0 body, (normalizeAtprotoTag u found.2).isSome →
    ∃ count, Fits (u.segment body) count ∧
      (found.1 ++ found.2).length ≤ ((u.segment body).take count).flatten.length

@[simp] theorem byteLength_append (one next : Text) :
    byteLength (one ++ next) = byteLength one + byteLength next := by
  simp [byteLength]

theorem length_le_byteLength (text : Text) : text.length ≤ byteLength text := by
  induction text with
  | nil => simp
  | cons c rest ih =>
    have filled := c.utf8Size_pos
    simp only [byteLength, List.map_cons, List.sum_cons, List.length_cons] at ih ⊢
    omega

section
variable {body one next : Text}

theorem prefix_iff_length (first : one <+: body) (second : next <+: body) :
    one <+: next ↔ one.length ≤ next.length :=
  ⟨List.IsPrefix.length_le, List.prefix_of_prefix_length_le first second⟩

theorem byteLength_le_iff (first : one <+: body) (second : next <+: body) :
    byteLength one ≤ byteLength next ↔ one.length ≤ next.length := by
  constructor
  · intro fewer
    by_contra longer
    obtain ⟨more, rfl⟩ := (prefix_iff_length second first).mpr (by omega)
    have := length_le_byteLength more
    simp only [byteLength_append, List.length_append] at fewer longer
    omega
  · intro shorter
    obtain ⟨more, rfl⟩ := (prefix_iff_length first second).mpr shorter
    simp
end

variable {text : Text}

theorem matchAt_spec {raw : Text} (found : matchAt text = some raw) : raw ≠ [] ∧ raw <+: text := by
  unfold matchAt at found
  dsimp only at found
  split at found
  · cases found
  · next filled =>
    cases found
    push Not at filled
    refine ⟨by simp [filled.1], ?_⟩
    have signs : (text.take 2).takeWhile isHash <+: text :=
      (List.takeWhile_prefix _).trans (List.take_prefix _ _)
    conv_rhs => rw [← List.take_append_drop ((text.take 2).takeWhile isHash).length text,
      ← List.prefix_iff_eq_take.mp signs]
    rw [List.prefix_append_right_inj]
    exact (List.takeWhile_prefix _).trans (List.take_prefix _ _)

theorem matchAll_spans {before rest : Text} {skip : Nat} :
    ∀ found ∈ matchAll before skip rest, before.length + skip ≤ found.1.length ∧
      ∃ after, before ++ rest = found.1 ++ (found.2 ++ after) ∧
        matchAt (found.2 ++ after) = some found.2 := by
  fun_induction matchAll before skip rest with
  | case1 => simp
  | case2 before c rest skip ih =>
    intro found listed
    obtain ⟨later, after, spans⟩ := ih found listed
    refine ⟨?_, after, by simpa using spans⟩
    simp only [List.length_append, List.length_cons, List.length_nil] at later
    omega
  | case3 before c rest _ ih =>
    intro found listed
    obtain ⟨later, after, spans⟩ := ih found listed
    refine ⟨?_, after, by simpa using spans⟩
    simp only [List.length_append, List.length_cons, List.length_nil] at later
    omega
  | case4 before c rest raw here ih =>
    rintro found (_ | ⟨_, listed⟩)
    · obtain ⟨-, after, joined⟩ := matchAt_spec here
      exact ⟨by simp, after, by rw [joined], by rw [joined, here]⟩
    · obtain ⟨later, after, spans⟩ := ih found listed
      refine ⟨?_, after, by simpa using spans⟩
      simp only [List.length_append, List.length_cons, List.length_nil] at later
      omega

theorem matchAll_ordered (before rest : Text) (skip : Nat) :
    (matchAll before skip rest).Pairwise fun one next => one.1 ++ one.2 <+: next.1 := by
  fun_induction matchAll before skip rest with
  | case1 => exact .nil
  | case2 before c rest skip ih => exact ih
  | case3 before c rest _ ih => exact ih
  | case4 before c rest raw here ih =>
    refine .cons (fun next listed => ?_) ih
    obtain ⟨later, after, spans, -⟩ := matchAll_spans next listed
    obtain ⟨filled, start⟩ := matchAt_spec here
    have longer := List.length_pos_iff.mpr filled
    have first : before ++ raw <+: before ++ [c] ++ rest := by
      simpa using (List.prefix_append_right_inj before).mpr start
    refine (prefix_iff_length first (spans ▸ List.prefix_append _ _)).mpr ?_
    simp only [List.length_append, List.length_cons, List.length_nil] at later ⊢
    omega

theorem clampLoop_longest (rest : List Text) : ∀ taken : List Text,
    Fits (taken ++ rest) taken.length →
      Longest (taken ++ rest) (clampLoop taken.flatten taken.length rest) := by
  induction rest with
  | nil =>
    intro taken fits
    exact ⟨_, fits, by simp [clampLoop], fun other more => by simpa using more.1⟩
  | cons grapheme rest ih =>
    intro taken fits
    have step : (taken ++ grapheme :: rest).take (taken.length + 1) = taken ++ [grapheme] := by
      rw [List.take_length_add_append, List.take_succ_cons, List.take_zero]
    have stays (full : ¬ Fits (taken ++ grapheme :: rest) (taken.length + 1)) :
        Longest (taken ++ grapheme :: rest) taken.flatten := by
      refine ⟨taken.length, fits, by simp, fun other more => ?_⟩
      by_contra longer
      apply full
      obtain ⟨listed, counted, small⟩ := more
      refine ⟨by omega, by omega, le_trans ?_ small⟩
      obtain ⟨tail, joined⟩ := List.take_prefix_take_left (l := taken ++ grapheme :: rest)
        (show taken.length + 1 ≤ other by omega)
      rw [← joined, List.flatten_append, byteLength_append]
      omega
    unfold clampLoop
    split
    · next full => exact stays fun fits => by have := fits.2.1; omega
    · split
      · next large =>
        refine stays fun fits => ?_
        have small := fits.2.2
        rw [step, List.flatten_append] at small
        simp only [List.flatten_cons, List.flatten_nil, List.append_nil] at small
        omega
      · next open' small =>
        have more := ih (taken ++ [grapheme]) ⟨by simp, by simp; omega, by
          rw [List.take_left']
          · simpa using small
          · rfl⟩
        simpa using more

theorem clampAtprotoText_longest (u : Unicode) (text : Text) :
    Longest (u.segment text) (clampAtprotoText u text) :=
  clampLoop_longest (u.segment text) [] ⟨by simp, by simp, by simp [byteLength]⟩

variable {u : Unicode} {body : Text}

theorem serialize_facets (u : Unicode) (body : Text) :
    (serialize u body).facets.getD [] = build u body := by
  unfold serialize
  dsimp only
  split <;> simp_all

theorem text_prefix (longest : Longest (u.segment body) text) : text <+: body := by
  obtain ⟨count, -, rfl, -⟩ := longest
  refine ⟨((u.segment body).drop count).flatten, ?_⟩
  rw [← List.flatten_append, List.take_append_drop, u.segment_flatten]

theorem build_covers : ∀ facet ∈ build u body, Covers u body facet := by
  intro facet listed
  simp only [build, List.mem_filterMap, Option.map_eq_some_iff] at listed
  obtain ⟨found, inside, tag, normal, rfl⟩ := listed
  obtain ⟨-, after, spans, here⟩ := matchAll_spans found inside
  exact ⟨found.1, found.2, after, spans, here, normal, rfl, by simp⟩

theorem build_ordered (u : Unicode) (body : Text) :
    (build u body).Pairwise fun one next => one.byteEnd ≤ next.byteStart := by
  refine List.Pairwise.filterMap _ ?_ (matchAll_ordered [] body 0)
  intro one next follows facet made other made'
  simp only [Option.map_eq_some_iff] at made made'
  obtain ⟨-, -, rfl⟩ := made
  obtain ⟨-, -, rfl⟩ := made'
  rw [← byteLength_append]
  exact (byteLength_le_iff follows (List.prefix_rfl)).mpr follows.length_le

theorem hashtagsFit_iff (longest : Longest (u.segment body) text) :
    HashtagsFit u body ↔ ∀ facet ∈ build u body, facet.byteEnd ≤ byteLength text := by
  have inText := text_prefix longest
  obtain ⟨count, fits, rfl, most⟩ := longest
  have spans : ∀ found ∈ matchAll [] 0 body, found.1 ++ found.2 <+: body := by
    intro found listed
    obtain ⟨-, after, spans, -⟩ := matchAll_spans found listed
    exact ⟨after, by simpa using spans.symm⟩
  constructor
  · intro fit facet listed
    simp only [build, List.mem_filterMap, Option.map_eq_some_iff] at listed
    obtain ⟨found, inside, tag, normal, rfl⟩ := listed
    obtain ⟨other, fits', long⟩ := fit found inside (by simp [normal])
    rw [← byteLength_append, byteLength_le_iff (spans found inside) inText]
    obtain ⟨more, joined⟩ := List.take_prefix_take_left (l := u.segment body) (most other fits')
    rw [← joined, List.flatten_append]
    simp only [List.length_append] at long ⊢
    omega
  · intro inside found listed normal
    obtain ⟨tag, normal⟩ := Option.isSome_iff_exists.mp normal
    have fits' := inside _ (List.mem_filterMap.mpr ⟨found, listed, by rw [normal]; rfl⟩)
    rw [← byteLength_append, byteLength_le_iff (spans found listed) inText] at fits'
    exact ⟨count, fits, fits'⟩

/-- The record is sound for the bodies whose hashtags all end within the limits. -/
theorem sound_record_iff (u : Unicode) (body : Text) :
    SoundRecord u body (serialize u body) ↔ HashtagsFit u body := by
  have longest := clampAtprotoText_longest u body
  rw [hashtagsFit_iff longest]
  constructor
  · intro sound facet listed
    exact (sound.inside facet (serialize_facets u body ▸ listed)).2
  · intro inside
    have within : ∀ facet ∈ build u body, facet.byteStart < facet.byteEnd ∧
        facet.byteEnd ≤ byteLength (serialize u body).text := by
      intro facet listed
      obtain ⟨before, raw, after, -, here, -, start, finish⟩ := build_covers facet listed
      have filled := List.length_pos_iff.mpr (matchAt_spec here).1
      have bytes := length_le_byteLength raw
      rw [byteLength_append] at finish
      exact ⟨by omega, inside facet listed⟩
    rw [← serialize_facets u body] at within
    exact ⟨within, serialize_facets u body ▸ build_covers, serialize_facets u body ▸
      build_ordered u body, longest⟩

def codePoints : Unicode where
  nfkc := id
  toLowerCase := List.map Char.toLower
  letter := Char.isAlpha
  mark _ := false
  number := Char.isDigit
  connector c := decide (c = '_')
  segment := List.map fun c => [c]
  segment_flatten := by simp [← List.flatMap_def]
  segment_filled := by simp
  nfkc_ascii _ _ := rfl
  lower_ascii _ _ := rfl
  letter_ascii _ _ := rfl
  mark_ascii _ _ := rfl
  number_ascii _ _ := rfl
  connector_ascii _ _ := rfl
  segment_ascii _ _ _ := rfl

def longBody : Text := List.replicate 300 'a' ++ [' ', '#', 't']

theorem long_body_unsound : ¬ SoundRecord codePoints longBody (serialize codePoints longBody) := by
  intro sound
  have outside : ∃ facet ∈ (serialize codePoints longBody).facets.getD [],
      byteLength (serialize codePoints longBody).text < facet.byteEnd := by decide +kernel
  obtain ⟨facet, listed, outside⟩ := outside
  exact absurd (sound.inside facet listed).2 (by omega)

end MastopodFederation.Guarantees.FacetBounds

/-!
# Normalising a tag again

A hashtag normalises to itself behind one sign. A normalised record tag normalises to itself
unless it kept the second of two signs, which the next call takes away; the tags read back
from the facets of a text are then not the tags of those facets.
-/
namespace MastopodFederation.Guarantees.TagIdempotence
open Lib.Trimmed Lib.AsciiCase Source.Hashtags
open Source.SigningService (whitespace)

variable {u : Unicode}

def KeepsSign (v : Text) : Prop :=
  ∃ rest more, trim v = '#' :: rest ∧ trim rest = '#' :: more ∧
    (∀ c ∈ more.rdropWhile (· ∈ trailingPunctuation), c ∉ whitespace) ∧
    (more.rdropWhile (· ∈ trailingPunctuation)).length < tagGraphemeMax

def Idempotent (u : Unicode) (v : Text) : Prop :=
  (∀ t, normalizeAtprotoTag u v = some t → normalizeAtprotoTag u t = some t) ∧
    ∀ t, normalizeHashtag u v false = some t → normalizeHashtag u ('#' :: t) false = some t

def ReadBack (u : Unicode) (body : Text) : Prop :=
  extractAtprotoTagsFromFacets u (build u body) = ((build u body).map Facet.tag).eraseDups

variable {text : Text}

theorem ascii_lower (ascii : Ascii text) : Ascii (text.map Char.toLower) := by
  intro c member
  obtain ⟨d, inside, rfl⟩ := List.mem_map.mp member
  exact toLower_lt (ascii d inside)

theorem trim_sublist (text : Text) : (trim text).Sublist text :=
  (List.rdropWhile_prefix _ _).sublist.trans (List.dropWhile_suffix _).sublist

theorem trim_solid (solid : ∀ c ∈ text, c ∉ whitespace) : trim text = text :=
  trimmed_of_forall _ (by simpa using solid)

theorem withoutSign_ascii (ascii : Ascii text) :
    withoutSign text = if text.head? = some '#' then text.drop 1 else text := by
  unfold withoutSign
  cases text with
  | nil => simp
  | cons c rest =>
    have plain : c ≠ '＃' := by
      rintro rfl
      exact absurd (ascii _ List.mem_cons_self) (by decide)
    by_cases sign : c = '#'
    · simp [sign]
    · simp [sign, Ne.symm sign, Ne.symm plain]

variable {v : Text}

theorem candidate_ascii (ascii : Ascii v) :
    candidate u v = (trim (if (trim v).head? = some '#' then (trim v).drop 1 else trim v)).rdropWhile
      (· ∈ trailingPunctuation) := by
  have trimmed : Ascii (trim v) := fun c member => ascii c ((trim_sublist v).subset member)
  rw [candidate, u.nfkc_ascii _ trimmed, withoutSign_ascii trimmed]

theorem candidate_sublist (ascii : Ascii v) : (candidate u v).Sublist v := by
  rw [candidate_ascii ascii]
  refine ((List.rdropWhile_prefix _ _).sublist.trans (trim_sublist _)).trans ?_
  split
  · exact (List.drop_sublist 1 _).trans (trim_sublist v)
  · exact trim_sublist v

structure Settled (t : Text) : Prop where
  filled : t ≠ []
  ascii : Ascii t
  solid : ∀ c ∈ t, c ∉ whitespace
  word : t.all Char.isDigit = false
  short : t.length ≤ tagGraphemeMax
  closed : t.rdropWhile (· ∈ trailingPunctuation) = t
  lower : t.map Char.toLower = t

variable {t : Text}

theorem segment_length (ascii : Ascii t) (solid : ∀ c ∈ t, c ∉ whitespace) :
    (u.segment t).length = t.length := by
  have joined : '\n' ∉ t := fun member => solid _ member (by simp [whitespace])
  rw [u.segment_ascii t ascii joined, List.length_map]

theorem normalizeAtprotoTag_iff (ascii : Ascii v) : normalizeAtprotoTag u v = some t ↔
      candidate u v ≠ [] ∧ (∀ c ∈ candidate u v, c ∉ whitespace) ∧
        (candidate u v).all Char.isDigit = false ∧ (candidate u v).length ≤ tagGraphemeMax ∧
        (candidate u v).map Char.toLower = t := by
  have inner : Ascii (candidate u v) :=
    fun c member => ascii c ((candidate_sublist ascii).subset member)
  have trimmed : Ascii (trim v) := fun c member => ascii c ((trim_sublist v).subset member)
  have blank : u.nfkc (trim v) = [] → candidate u v = [] := by
    intro empty
    rw [u.nfkc_ascii _ trimmed] at empty
    rw [candidate_ascii ascii, empty]
    rfl
  unfold normalizeAtprotoTag
  by_cases solid : ∀ c ∈ candidate u v, c ∉ whitespace
  · have open' : (candidate u v).any (· ∈ whitespace) = false := by simpa using solid
    simp only [open', segment_length inner solid, u.lower_ascii _ inner]
    grind
  · have closed : (candidate u v).any (· ∈ whitespace) = true := by simpa using solid
    simp only [closed]
    grind

theorem settled_of_normalize (ascii : Ascii v)
    (done : normalizeAtprotoTag u v = some t) : Settled t := by
  obtain ⟨filled, solid, word, short, rfl⟩ := (normalizeAtprotoTag_iff ascii).mp done
  have inner : Ascii (candidate u v) :=
    fun c member => ascii c ((candidate_sublist ascii).subset member)
  refine ⟨by simpa using filled, ascii_lower inner, ?_, ?_, by simpa using short, ?_, ?_⟩
  · intro c member
    obtain ⟨d, inside, rfl⟩ := List.mem_map.mp member
    rw [toLower_mem (by decide)]
    exact solid d inside
  · rw [List.all_map]
    simpa [Function.comp_def, isDigit_toLower] using word
  · rw [List.rdropWhile_eq_self_iff]
    intro _
    rw [List.getLast_map, decide_eq_true_eq, toLower_mem (by decide)]
    have kept := List.rdropWhile_last_not (· ∈ trailingPunctuation) _ filled
    exact fun member => kept (decide_eq_true member)
  · simp [toLower_idem]

theorem candidate_settled (settled : Settled t) :
    candidate u t = if t.head? = some '#' then (t.drop 1).rdropWhile (· ∈ trailingPunctuation)
      else t := by
  rw [candidate_ascii settled.ascii, trim_solid settled.solid]
  split
  · rw [trim_solid fun c member => settled.solid c (List.mem_of_mem_drop member)]
  · rw [trim_solid settled.solid, settled.closed]

theorem normalize_settled (settled : Settled t) (plain : t.head? ≠ some '#') :
    normalizeAtprotoTag u t = some t := by
  rw [normalizeAtprotoTag_iff settled.ascii, candidate_settled settled, if_neg plain]
  exact ⟨settled.filled, settled.solid, settled.word, settled.short, settled.lower⟩

theorem normalize_shorter {s : Text} (settled : Settled s) (sign : s.head? = some '#')
    (done : normalizeAtprotoTag u s = some t) : t.length < s.length := by
  obtain ⟨-, -, -, -, rfl⟩ := (normalizeAtprotoTag_iff settled.ascii).mp done
  have filled := List.length_pos_iff.mpr settled.filled
  have less := (List.rdropWhile_prefix (· ∈ trailingPunctuation) (s.drop 1)).length_le
  rw [candidate_settled settled, if_pos sign, List.length_map]
  rw [List.length_drop] at less
  omega

theorem rdropWhile_sign (more : Text) :
    ('#' :: more).rdropWhile (· ∈ trailingPunctuation) =
      '#' :: more.rdropWhile (· ∈ trailingPunctuation) := by
  induction more using List.reverseRecOn with
  | nil => decide
  | append_singleton more c ih =>
    rw [← List.cons_append, List.rdropWhile_concat, List.rdropWhile_concat, ih]
    split <;> rfl

theorem keepsSign_iff (ascii : Ascii v) :
    KeepsSign v ↔ ∃ t, normalizeAtprotoTag u v = some t ∧ t.head? = some '#' := by
  simp only [normalizeAtprotoTag_iff ascii]
  constructor
  · rintro ⟨rest, more, first, second, solid, short⟩
    have found : candidate u v = '#' :: more.rdropWhile (· ∈ trailingPunctuation) := by
      rw [candidate_ascii ascii, first]
      simp only [List.head?_cons, if_true, List.drop_one, List.tail_cons]
      rw [second, rdropWhile_sign]
    rw [found]
    refine ⟨_, ⟨by simp, ?_, by simp, by simp; omega, rfl⟩, by simp⟩
    rintro c (_ | ⟨_, member⟩)
    · simp [whitespace]
    · exact solid c member
  · rintro ⟨t, ⟨-, solid, -, short, rfl⟩, sign⟩
    have head : (candidate u v).head? = some '#' := by
      rw [List.head?_map, Option.map_eq_some_iff] at sign
      obtain ⟨c, start, lowered⟩ := sign
      have same : c ∈ ['#'] := (toLower_mem (by decide) c).mp (by simp [lowered])
      rw [start, List.mem_singleton.mp same]
    generalize remains : candidate u v = left at *
    obtain ⟨stem, rfl⟩ := List.head?_eq_some_iff.mp head
    rw [candidate_ascii ascii] at remains
    -- the trimmed rest starts as the candidate does
    have start : ('#' :: stem) <+: trim (if (trim v).head? = some '#' then (trim v).drop 1
        else trim v) := remains ▸ List.rdropWhile_prefix _ _
    obtain ⟨more, second⟩ : ∃ more, trim (if (trim v).head? = some '#' then (trim v).drop 1
        else trim v) = '#' :: more := by
      obtain ⟨more, joined⟩ := start
      exact ⟨stem ++ more, by rw [← joined, List.cons_append]⟩
    rw [second, rdropWhile_sign, List.cons.injEq] at remains
    obtain ⟨-, rfl⟩ := remains
    by_cases first : (trim v).head? = some '#'
    · obtain ⟨rest, first⟩ := List.head?_eq_some_iff.mp first
      refine ⟨rest, more, first, by simpa [first] using second, ?_, by simp at short; omega⟩
      exact fun c member => solid c (List.mem_cons_of_mem _ member)
    · have same : trim (trim v) = trim v := trimmed_trimmed _ v
      rw [if_neg first, same] at second
      exact absurd (by rw [second]; rfl) first

theorem normalizeAtprotoTag_idempotent_iff (ascii : Ascii v) :
    (∀ t, normalizeAtprotoTag u v = some t → normalizeAtprotoTag u t = some t) ↔ ¬ KeepsSign v := by
  rw [keepsSign_iff (u := u) ascii]
  constructor
  · rintro fixed ⟨t, done, sign⟩
    have settled := settled_of_normalize ascii done
    exact absurd (normalize_shorter settled sign (fixed t done)) (Nat.lt_irrefl _)
  · intro plain t done
    exact normalize_settled (settled_of_normalize ascii done) fun sign => plain ⟨t, done, sign⟩

def bodyChar (c : Char) : Bool := c.isAlpha || c.isDigit || decide (c = '_')

theorem bodyChar_toLower (c : Char) : bodyChar c.toLower = bodyChar c := by
  have underscore : c.toLower ∈ ['_'] ↔ c ∈ ['_'] := toLower_mem (by decide) c
  simp only [List.mem_singleton] at underscore
  simp [bodyChar, alpha_toLower, isDigit_toLower, underscore]

theorem tables_ascii {c : Char} (ascii : c.toNat < 128) :
    (u.letter c || u.mark c || u.number c || u.connector c) = bodyChar c ∧ c ∉ separators ∧
      (u.letter c || u.number c) = (c.isAlpha || c.isDigit) ∧
      (u.letter c || u.mark c) = c.isAlpha := by
  rw [u.letter_ascii c ascii, u.mark_ascii c ascii, u.number_ascii c ascii,
    u.connector_ascii c ascii]
  refine ⟨by simp [bodyChar], ?_, rfl, by simp⟩
  intro member
  simp only [separators, List.mem_cons, List.not_mem_nil, or_false] at member
  rcases member with rfl | rfl | rfl <;> exact absurd ascii (by decide)

theorem normalizeHashtagBody_iff {value : Text} (ascii : Ascii value) :
    normalizeHashtagBody u value = some t ↔ value ≠ [] ∧ (∀ c ∈ value, bodyChar c) ∧
        (∀ c ∈ value.head?, c.isAlpha || c.isDigit) ∧
        (∃ c ∈ value, c.isAlpha) ∧ value.map Char.toLower = t := by
  have kept : value.rdropWhile (· ∈ separators) = value := by
    rw [List.rdropWhile_eq_self_iff]
    intro filled
    simpa using (tables_ascii (u := u) (ascii _ (List.getLast_mem filled))).2.1
  have allowed : (value.any fun c =>
      !(u.letter c || u.mark c || u.number c || u.connector c || c ∈ separators)) = false ↔
      ∀ c ∈ value, bodyChar c := by
    rw [List.any_eq_false]
    refine forall₂_congr fun c member => ?_
    obtain ⟨table, plain, -, -⟩ := tables_ascii (u := u) (ascii c member)
    simp only [table, plain]
    simp
  have first : value.head?.any (fun c => !(u.letter c || u.number c)) = false ↔
      ∀ c ∈ value.head?, c.isAlpha || c.isDigit := by
    rw [Option.any_eq_false]
    refine forall₂_congr fun c member => ?_
    rw [(tables_ascii (u := u) (ascii c (List.mem_of_mem_head? member))).2.2.1]
    cases c.isAlpha || c.isDigit <;> decide
  have last : (∀ c ∈ value, bodyChar c) → (value.getLast?.any fun c =>
      !(u.letter c || u.mark c || u.number c || u.connector c)) = false := by
    intro inside
    rw [Option.any_eq_false]
    intro c member
    have listed := List.mem_of_mem_getLast? member
    rw [(tables_ascii (u := u) (ascii c listed)).1, inside c listed]
    simp
  have wordless : (value.all fun c => !(u.letter c || u.mark c)) = false ↔
      ∃ c ∈ value, c.isAlpha := by
    rw [List.all_eq_false]
    refine exists_congr fun c => and_congr_right fun member => ?_
    rw [(tables_ascii (u := u) (ascii c member)).2.2.2]
    simp
  unfold normalizeHashtagBody
  dsimp only
  rw [u.nfkc_ascii _ ascii, kept, u.lower_ascii _ ascii]
  grind

theorem normalizeHashtag_fixed {allowMissingHash : Bool} (ascii : Ascii v)
    (done : normalizeHashtag u v allowMissingHash = some t) :
    normalizeHashtag u ('#' :: t) allowMissingHash = some t := by
  obtain ⟨value, inner, made⟩ : ∃ value, Ascii value ∧ normalizeHashtagBody u value = some t := by
    have trimmed : Ascii (trim v) := fun c member => ascii c ((trim_sublist v).subset member)
    unfold normalizeHashtag at done
    dsimp only at done
    split at done
    · cases done
    · split at done
      · exact ⟨_, fun c member => trimmed c (List.mem_of_mem_drop member), done⟩
      · split at done
        · exact ⟨_, trimmed, done⟩
        · cases done
  obtain ⟨filled, inside, first, word, rfl⟩ := (normalizeHashtagBody_iff inner).mp made
  have again : normalizeHashtagBody u (value.map Char.toLower) = some (value.map Char.toLower) := by
    rw [normalizeHashtagBody_iff (ascii_lower inner)]
    refine ⟨by simpa using filled, by simpa [bodyChar_toLower] using inside, ?_, ?_, ?_⟩
    · simpa [alpha_toLower, isDigit_toLower] using first
    · simpa [alpha_toLower] using word
    · simp [toLower_idem]
  have solid : ∀ c ∈ '#' :: value.map Char.toLower, c ∉ whitespace := by
    have outside : ∀ blank ∈ whitespace, blank ≠ '#' ∧ bodyChar blank = false := by
      have all : whitespace.all (fun blank => blank ≠ '#' && !bodyChar blank) := by decide
      simpa using all
    rintro c (_ | ⟨_, member⟩) blank
    · exact (outside _ blank).1 rfl
    · obtain ⟨d, listed, rfl⟩ := List.mem_map.mp member
      have := (outside _ blank).2
      rw [bodyChar_toLower, inside d listed] at this
      cases this
  unfold normalizeHashtag
  rw [trim_solid solid]
  simpa [isHash] using again

section
variable {facets : List Facet}

theorem readBack_iff (settled : ∀ facet ∈ facets, Settled facet.tag) :
    extractAtprotoTagsFromFacets u facets = (facets.map Facet.tag).eraseDups ↔
      ∀ facet ∈ facets, facet.tag.head? ≠ some '#' := by
  constructor
  · intro same first listed sign
    have unbounded : ∀ length, ∃ facet ∈ facets, facet.tag.head? = some '#' ∧
        length ≤ facet.tag.length := by
      intro length
      induction length with
      | zero => exact ⟨first, listed, sign, Nat.zero_le _⟩
      | succ length ih =>
        obtain ⟨facet, inside, signed, long⟩ := ih
        have read : facet.tag ∈ extractAtprotoTagsFromFacets u facets := by
          rw [same, List.mem_eraseDups]
          exact List.mem_map_of_mem inside
        simp only [extractAtprotoTagsFromFacets, List.mem_eraseDups, List.mem_filterMap] at read
        obtain ⟨source, kept, normal⟩ := read
        by_cases plain : source.tag.head? = some '#'
        · have := normalize_shorter (settled source kept) plain normal
          exact ⟨source, kept, plain, by omega⟩
        · rw [normalize_settled (settled source kept) plain, Option.some.injEq] at normal
          exact absurd (normal ▸ signed) plain
    obtain ⟨facet, inside, -, long⟩ := unbounded (tagGraphemeMax + 1)
    have := (settled facet inside).short
    omega
  · intro plain
    rw [extractAtprotoTagsFromFacets, ← List.filterMap_eq_map]
    congr 1
    refine List.filterMap_congr fun facet inside => ?_
    exact normalize_settled (settled facet inside) (plain facet inside)
end

variable {body : Text}

theorem matched_ascii (ascii : Ascii body) : ∀ found ∈ matchAll [] 0 body, Ascii found.2 := by
  intro found listed c member
  obtain ⟨-, after, spans, -⟩ := FacetBounds.matchAll_spans found listed
  apply ascii
  rw [← List.nil_append body, spans]
  simp [member]

theorem build_settled (ascii : Ascii body) : ∀ facet ∈ build u body, Settled facet.tag := by
  intro facet listed
  simp only [build, List.mem_filterMap, Option.map_eq_some_iff] at listed
  obtain ⟨found, inside, tag, normal, rfl⟩ := listed
  exact settled_of_normalize (matched_ascii ascii found inside) normal

theorem readBack_build_iff (ascii : Ascii body) :
    ReadBack u body ↔ ∀ found ∈ matchAll [] 0 body, ¬ KeepsSign found.2 := by
  rw [ReadBack, readBack_iff (build_settled ascii)]
  constructor
  · intro plain found listed kept
    obtain ⟨t, normal, sign⟩ := (keepsSign_iff (matched_ascii ascii found listed)).mp kept
    exact plain _ (List.mem_filterMap.mpr ⟨found, listed, by rw [normal]; rfl⟩) sign
  · intro none' facet listed sign
    simp only [build, List.mem_filterMap, Option.map_eq_some_iff] at listed
    obtain ⟨found, inside, tag, normal, rfl⟩ := listed
    exact none' found inside ((keepsSign_iff (matched_ascii ascii found inside)).mpr
      ⟨tag, normal, sign⟩)

/-- Normalising again changes the record tags that kept a sign, and no others. -/
theorem tags_idempotent_iff (u : Unicode) {v : Text} (ascii : Ascii v) :
    (Idempotent u v ↔ ¬ KeepsSign v) ∧
      (ReadBack u v ↔ ∀ found ∈ matchAll [] 0 v, ¬ KeepsSign found.2) := by
  refine ⟨?_, readBack_build_iff ascii⟩
  rw [Idempotent, normalizeAtprotoTag_idempotent_iff ascii]
  exact and_iff_left fun t done => normalizeHashtag_fixed ascii done

theorem tags_idempotent_two_signs :
    (Idempotent FacetBounds.codePoints ['#', '#', 'a'] ↔ ¬ KeepsSign ['#', '#', 'a']) ∧
      (ReadBack FacetBounds.codePoints ['#', '#', 'a'] ↔
        ∀ found ∈ matchAll [] 0 ['#', '#', 'a'], ¬ KeepsSign found.2) :=
  tags_idempotent_iff _ (by decide)

theorem two_signs_lost : ¬ Idempotent FacetBounds.codePoints ['#', '#', 'a'] ∧
    ¬ ReadBack FacetBounds.codePoints ['#', '#', 'a'] := by
  refine ⟨fun fixed => ?_, by unfold ReadBack; decide +kernel⟩
  exact absurd (fixed.1 ['#', 'a'] (by decide +kernel)) (by decide +kernel)

end MastopodFederation.Guarantees.TagIdempotence
