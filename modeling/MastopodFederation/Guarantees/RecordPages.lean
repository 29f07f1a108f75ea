import Mathlib.Order.Basic
import MastopodFederation.Source.AtAliasStore

/-!
# Paging through records while some are deleted

While the record that a cursor names is still there at the next request, the pages end, are
in order, and together have every record that stayed. A cursor whose record is gone starts
the listing again.
-/
namespace MastopodFederation.Guarantees.RecordPages
open Source.AtAliasStore Source.AtRecordReader

structure KeyOrder (le : String → String → Bool) : Prop where
  total : ∀ a b, le a b || le b a
  trans : ∀ a b c, le a b → le b c → le a c
  antisymm : ∀ a b, le a b → le b a → a = b

theorem KeyOrder.before {le : String → String → Bool} (order : KeyOrder le) (reverse : Bool) :
    KeyOrder (before le reverse) := by
  cases reverse with
  | false => exact order
  | true =>
    exact ⟨fun a b => order.total b a, fun a b c first second => order.trans c b a second first,
      fun a b first second => (order.antisymm b a first second).symm⟩

structure Paging where
  le : String → String → Bool
  did : String
  rev : Option String
  snapshots : Nat → List AtAliasRecord
  input : ListRecordsInput

namespace Paging
variable (p : Paging)

def cursors : Nat → Option String
  | 0 => none
  | i + 1 => (listPage p.le p.did p.rev (p.snapshots i) { p.input with cursor := cursors i }).cursor

def page (i : Nat) : ListRecordsResult :=
  listPage p.le p.did p.rev (p.snapshots i) { p.input with cursor := p.cursors i }

def limit : Nat := p.input.limit.getD 50

def listing (i : Nat) : List AtAliasRecord :=
  sorted p.le (p.snapshots i) p.input.collection p.input.reverse

def Reached (i : Nat) : Prop := ∀ j < i, (p.page j).cursor ≠ none

def Present : Prop := ∀ i c, p.Reached i → (p.page i).cursor = some c →
  c ≠ "" ∧ c ∈ (p.listing (i + 1)).map (·.rkey)

def Precedes (a b : String) : Prop := before p.le p.input.reverse a b = true ∧ a ≠ b

abbrev Ordered (l : List AtAliasRecord) : Prop := l.Pairwise fun a b => p.Precedes a.rkey b.rkey

structure Shrinking : Prop where
  order : KeyOrder p.le
  distinct : ∀ i, ((p.listing i).map (·.rkey)).Nodup
  kept : ∀ i, ∀ a ∈ p.listing (i + 1), a ∈ p.listing i

variable {p} (shrinking : p.Shrinking) {a b c : String} {i : Nat}
include shrinking

theorem Precedes.trans (first : p.Precedes a b) (second : p.Precedes b c) : p.Precedes a c := by
  have order := shrinking.order.before p.input.reverse
  refine ⟨order.trans a b c first.1 second.1, ?_⟩
  rintro rfl
  exact first.2 (order.antisymm _ _ first.1 second.1)

theorem Precedes.asymm (first : p.Precedes a b) (second : p.Precedes b a) : False :=
  first.2 ((shrinking.order.before p.input.reverse).antisymm _ _ first.1 second.1)

theorem listing_ordered (i : Nat) : p.Ordered (p.listing i) := by
  have order := shrinking.order.before p.input.reverse
  have pairs : (p.listing i).Pairwise fun a b => before p.le p.input.reverse a.rkey b.rkey = true :=
    List.pairwise_mergeSort (fun a b c => order.trans a.rkey b.rkey c.rkey)
      (fun a b => order.total a.rkey b.rkey) _
  exact pairs.imp₂ (fun _ _ below other => ⟨below, other⟩)
    (List.pairwise_map.mp (shrinking.distinct i))

variable {l : List AtAliasRecord}

theorem mem_afterCursor (ordered : p.Ordered l) (some : c ≠ "")
    (present : c ∈ l.map (·.rkey)) (r : AtAliasRecord) :
    r ∈ afterCursor (.some c) l ↔ r ∈ l ∧ p.Precedes c r.rkey := by
  obtain ⟨x, listed, rfl⟩ := List.mem_map.mp present
  obtain ⟨pre, post, rfl⟩ := List.append_of_mem listed
  obtain ⟨-, following, across⟩ := List.pairwise_append.mp ordered
  have earlier : ∀ y ∈ pre, p.Precedes y.rkey x.rkey := fun y here =>
    across y here x List.mem_cons_self
  have first : pre.findIdx? (fun y => decide (y.rkey = x.rkey)) = none := by
    rw [List.findIdx?_eq_none_iff]
    exact fun y here => decide_eq_false (earlier y here).2
  have rest : afterCursor (.some x.rkey) (pre ++ x :: post) = post := by
    unfold afterCursor
    split
    · next none => cases none
    · next empty => exact absurd (Option.some.inj empty) some
    · next c _ same =>
      cases same
      simp [List.findIdx?_append, List.findIdx?_cons, first]
  rw [rest, List.mem_append, List.mem_cons]
  constructor
  · intro later
    exact ⟨.inr (.inr later), (List.pairwise_cons.mp following).1 r later⟩
  · rintro ⟨here | rfl | later, after⟩
    · exact ((earlier r here).asymm shrinking after).elim
    · exact absurd rfl after.2
    · exact later

omit shrinking in
theorem afterCursor_sublist (cursor : Option String) (l : List AtAliasRecord) :
    (afterCursor cursor l).Sublist l := by
  unfold afterCursor
  split
  · exact List.Sublist.refl l
  · exact List.Sublist.refl l
  · split
    · exact List.Sublist.refl l
    · exact List.drop_sublist _ l

def remaining (p : Paging) (i : Nat) : List AtAliasRecord := afterCursor (p.cursors i) (p.listing i)

theorem remaining_ordered (i : Nat) : p.Ordered (p.remaining i) :=
  (listing_ordered shrinking i).sublist (afterCursor_sublist _ _)

theorem mem_remaining (present : p.Present) (reached : p.Reached i) (r : AtAliasRecord) :
    r ∈ p.remaining i ↔ r ∈ p.listing i ∧ ∀ c ∈ p.cursors i, p.Precedes c r.rkey := by
  cases i with
  | zero => simp [remaining, afterCursor, cursors]
  | succ i =>
    obtain ⟨c, returned⟩ := Option.ne_none_iff_exists'.mp (reached i (by omega))
    obtain ⟨some, named⟩ := present i c (fun j earlier => reached j (by omega)) returned
    have next : p.cursors (i + 1) = .some c := returned
    rw [remaining, next, mem_afterCursor shrinking (listing_ordered shrinking _) some named]
    simp

omit shrinking in
theorem page_records (i : Nat) :
    (p.page i).records = ((p.remaining i).take p.limit).map (storedRecord p.did) := rfl

omit shrinking in
theorem page_cursor (i : Nat) : (p.page i).cursor
    = if ((p.remaining i).take p.limit).length = p.limit ∧ p.limit < (p.remaining i).length
      then ((p.remaining i).take p.limit).getLast?.map (·.rkey) else none := rfl

omit shrinking in
theorem page_cases (positive : 0 < p.limit) (i : Nat) :
    ((p.page i).cursor = none ∧ (p.remaining i).take p.limit = p.remaining i) ∨
    ∃ pre last post, p.remaining i = pre ++ last :: post ∧
      (p.remaining i).take p.limit = pre ++ [last] ∧ (p.page i).cursor = some last.rkey := by
  rw [page_cursor]
  generalize p.remaining i = rest
  generalize p.limit = limit at positive
  rcases Nat.lt_or_ge limit rest.length with more | all
  · right
    have size : (rest.take limit).length = limit := by rw [List.length_take]; omega
    have full : rest.take limit ≠ [] := by
      rw [← List.length_pos_iff]
      omega
    refine ⟨(rest.take limit).dropLast, (rest.take limit).getLast full, rest.drop limit, ?_,
      (List.dropLast_concat_getLast full).symm, ?_⟩
    · rw [List.append_cons, List.dropLast_concat_getLast, List.take_append_drop]
    · rw [if_pos ⟨size, more⟩, List.getLast?_eq_some_getLast full]
      rfl
  · exact .inl ⟨if_neg (by omega), List.take_of_length_le all⟩

theorem mem_remaining_succ (present : p.Present) (reached : p.Reached (i + 1))
    {pre post : List AtAliasRecord} {last : AtAliasRecord}
    (cut : p.remaining i = pre ++ last :: post) (returned : (p.page i).cursor = some last.rkey)
    (r : AtAliasRecord) : r ∈ p.remaining (i + 1) ↔ r ∈ post ∧ r ∈ p.listing (i + 1) := by
  have next : p.cursors (i + 1) = some last.rkey := returned
  have ordered := cut ▸ remaining_ordered shrinking i
  obtain ⟨-, following, across⟩ := List.pairwise_append.mp ordered
  have here := mem_remaining shrinking present (i := i) fun j earlier => reached j (by omega)
  rw [mem_remaining shrinking present reached, next]
  simp only [Option.mem_def, Option.some.injEq, forall_eq']
  constructor
  · rintro ⟨listed, after⟩
    refine ⟨?_, listed⟩
    have before : ∀ c ∈ p.cursors i, p.Precedes c r.rkey := fun c named =>
      (((here last).mp (by simp [cut])).2 c named).trans shrinking after
    have among := (here r).mpr ⟨shrinking.kept i r listed, before⟩
    rw [cut, List.mem_append, List.mem_cons] at among
    rcases among with earlier | rfl | later
    · exact ((across r earlier last List.mem_cons_self).asymm shrinking after).elim
    · exact absurd rfl after.2
    · exact later
  · rintro ⟨later, listed⟩
    exact ⟨listed, (List.pairwise_cons.mp following).1 r later⟩

def taken (p : Paging) (i count : Nat) : List AtAliasRecord :=
  (List.range' i count).flatMap fun j => (p.remaining j).take p.limit

omit shrinking in
theorem nodup_of_ordered (ordered : p.Ordered l) : l.Nodup :=
  ordered.imp fun apart same => apart.2 (congrArg _ same)

theorem pages_from (present : p.Present) (positive : 0 < p.limit) (i : Nat)
    (reached : p.Reached i) :
    ∃ count, (p.page (i + count)).cursor = none ∧ p.Reached (i + count) ∧
      p.Ordered (p.taken i (count + 1)) ∧ (∀ r ∈ p.taken i (count + 1), r ∈ p.remaining i) ∧
      ∀ r ∈ p.remaining i, (∀ j ≤ i + count, r ∈ p.listing j) → r ∈ p.taken i (count + 1) := by
  induction size : (p.remaining i).length using Nat.strongRecOn generalizing i with
  | ind length ih =>
  have ordered := remaining_ordered shrinking i
  obtain ⟨last, all⟩ | ⟨pre, last, post, cut, full, returned⟩ := page_cases positive i
  · have whole : p.taken i 1 = p.remaining i := by simp [taken, all]
    exact ⟨0, last, reached, whole ▸ ordered, by simp [whole], fun r listed _ => by simpa [whole]⟩
  · have onward : p.Reached (i + 1) := by
      intro j earlier
      rcases Nat.lt_succ_iff_lt_or_eq.mp earlier with earlier | rfl
      · exact reached j earlier
      · simp [returned]
    have later := mem_remaining_succ shrinking present onward cut returned
    rw [cut] at ordered
    obtain ⟨start, following, across⟩ := List.pairwise_append.mp ordered
    have fewer : (p.remaining (i + 1)).length < length := by
      have within : (p.remaining (i + 1)).length ≤ post.length :=
        List.Nodup.length_le_of_subset (nodup_of_ordered (remaining_ordered shrinking _))
          fun r listed => ((later r).mp listed).1
      rw [← size, cut, List.length_append, List.length_cons]
      omega
    obtain ⟨count, finished, others, sorted, only, complete⟩ := ih _ fewer (i + 1) onward rfl
    have first : p.taken i (count + 2) = (pre ++ [last]) ++ p.taken (i + 1) (count + 1) := by
      simp [taken, List.range'_succ, full]
    have behind : ∀ r ∈ p.taken (i + 1) (count + 1), r ∈ post := fun r listed =>
      ((later r).mp (only r listed)).1
    rw [show i + 1 + count = i + (count + 1) by omega] at finished others complete
    refine ⟨count + 1, finished, others, ?_, ?_, ?_⟩
    · rw [first, List.append_assoc, List.singleton_append]
      refine List.pairwise_append.mpr ⟨start, List.pairwise_cons.mpr ⟨?_, sorted⟩, ?_⟩
      · exact fun r listed => (List.pairwise_cons.mp following).1 r (behind r listed)
      · intro r earlier other listed
        apply across r earlier
        rcases List.mem_cons.mp listed with rfl | listed
        · exact List.mem_cons_self
        · exact List.mem_cons_of_mem _ (behind other listed)
    · intro r listed
      rw [first, List.append_assoc, List.mem_append, List.singleton_append, List.mem_cons] at listed
      rw [cut, List.mem_append, List.mem_cons]
      exact listed.imp_right fun listed => listed.imp_right (behind r)
    · intro r listed stays
      rw [cut, List.mem_append, List.mem_cons] at listed
      rw [first, List.append_assoc, List.mem_append, List.singleton_append, List.mem_cons]
      refine listed.imp_right fun listed => listed.imp_right fun listed => ?_
      exact complete r ((later r).mpr ⟨listed, stays _ (by omega)⟩) stays

/-- While each cursor names a record that is still there, the pages end, are in strict order, and
have every record that exists throughout. -/
theorem pages_complete (present : p.Present) (positive : 0 < p.limit) :
    ∃ n, (p.page n).cursor = none ∧ p.Reached n ∧
      ((List.range (n + 1)).flatMap fun i => (p.page i).records).Pairwise
        (fun a b => p.Precedes a.rkey b.rkey) ∧
      ∀ r, (∀ i ≤ n, r ∈ p.listing i) →
        storedRecord p.did r ∈ (List.range (n + 1)).flatMap fun i => (p.page i).records := by
  obtain ⟨n, finished, reached, sorted, -, complete⟩ :=
    pages_from shrinking present positive 0 (fun _ none => absurd none (Nat.not_lt_zero _))
  rw [Nat.zero_add] at finished reached
  have records : ((List.range (n + 1)).flatMap fun i => (p.page i).records)
      = (p.taken 0 (n + 1)).map (storedRecord p.did) := by
    simp [taken, List.map_flatMap, ← List.range_eq_range', page_records]
  refine ⟨n, finished, reached, ?_, ?_⟩
  · rw [records, List.pairwise_map]
    exact sorted
  · intro r stays
    rw [records]
    apply List.mem_map_of_mem
    apply complete r _ (by simpa using stays)
    simpa [remaining, afterCursor, cursors] using stays 0 (Nat.zero_le _)

end Paging

def keyed (rkey : String) : AtAliasRecord :=
  { canonicalRefId := rkey, did := "did:plc:a", collection := "app.bsky.feed.post", rkey
    atUri := "at://did:plc:a/app.bsky.feed.post/" ++ rkey, cid := some "cid", createdAt := "t0"
    updatedAt := "t0" }

def threeRecords (left : List String) : Paging where
  le a b := decide (a ≤ b)
  did := "did:plc:a"
  rev := none
  snapshots i := (if i = 0 then ["1", "2", "3"] else left).map keyed
  input := { repo := "did:plc:a", collection := "app.bsky.feed.post", limit := some 2 }

section
variable {left : List String} (sublist : left.Sublist ["1", "2", "3"])
include sublist

theorem threeRecords_listing (i : Nat) :
    (threeRecords left).listing i = (if i = 0 then ["1", "2", "3"] else left).map keyed := by
  have part : (if i = 0 then ["1", "2", "3"] else left).Sublist ["1", "2", "3"] := by
    split
    · exact List.Sublist.refl _
    · exact sublist
  have active : ((threeRecords left).snapshots i).filter (fun a =>
      a.collection = (threeRecords left).input.collection && isActive a)
        = (threeRecords left).snapshots i := by
    simp [threeRecords, keyed, isActive]
  rw [Paging.listing, sorted, active]
  apply List.mergeSort_of_pairwise
  have three : (["1", "2", "3"].map keyed).Pairwise
      fun a b => before (threeRecords left).le false a.rkey b.rkey = true := by
    simp [before, threeRecords, keyed]
  exact three.sublist (part.map keyed)

theorem threeRecords_shrinking : (threeRecords left).Shrinking where
  order :=
    { total := fun a b => by simpa [threeRecords] using String.le_total a b
      trans := fun a b c => by simpa [threeRecords] using String.le_trans
      antisymm := fun a b => by simpa [threeRecords] using String.le_antisymm }
  distinct i := by
    have three : ["1", "2", "3"].Nodup := by decide
    rw [threeRecords_listing sublist, List.map_map, show (·.rkey) ∘ keyed = id from rfl, List.map_id]
    split
    · exact three
    · exact three.sublist sublist
  kept i r listed := by
    rw [threeRecords_listing sublist] at listed ⊢
    rw [if_neg (Nat.succ_ne_zero i)] at listed
    split
    · exact (sublist.map keyed).subset listed
    · exact listed

theorem threeRecords_first : ((threeRecords left).page 0).cursor = some "2" := by
  rw [Paging.page_cursor, Paging.remaining, threeRecords_listing sublist]
  rfl

theorem threeRecords_second : (threeRecords left).remaining 1
    = afterCursor (some "2") (left.map keyed) := by
  have next : (threeRecords left).cursors 1 = some "2" := threeRecords_first sublist
  rw [Paging.remaining, next, threeRecords_listing sublist]
  rfl

end

/-- The first record is deleted after the first page, and the second is the cursor. -/
theorem pages_complete_threeRecords :
    (threeRecords ["2", "3"]).Shrinking ∧ (threeRecords ["2", "3"]).Present ∧
    0 < (threeRecords ["2", "3"]).limit ∧
    ∃ n, ((threeRecords ["2", "3"]).page n).cursor = none ∧ (threeRecords ["2", "3"]).Reached n ∧
      ((List.range (n + 1)).flatMap fun i => ((threeRecords ["2", "3"]).page i).records).Pairwise
        (fun a b => (threeRecords ["2", "3"]).Precedes a.rkey b.rkey) ∧
      ∀ r, (∀ i ≤ n, r ∈ (threeRecords ["2", "3"]).listing i) →
        storedRecord "did:plc:a" r ∈
          (List.range (n + 1)).flatMap fun i => ((threeRecords ["2", "3"]).page i).records := by
  have sublist : ["2", "3"].Sublist ["1", "2", "3"] := by decide
  have shrinking := threeRecords_shrinking sublist
  have last : ((threeRecords ["2", "3"]).page 1).cursor = none := by
    rw [Paging.page_cursor, threeRecords_second sublist]
    rfl
  have present : (threeRecords ["2", "3"]).Present := by
    intro i c reached returned
    cases i with
    | zero =>
      rw [threeRecords_first sublist] at returned
      cases returned
      rw [threeRecords_listing sublist]
      decide
    | succ i =>
      cases i with
      | zero => rw [last] at returned; cases returned
      | succ i => exact absurd last (reached 1 (by omega))
  exact ⟨shrinking, present, by decide, Paging.pages_complete shrinking present (by decide)⟩

theorem listing_restarted : ¬ ∀ p : Paging, p.Shrinking → 0 < p.limit → ∃ n,
    (p.page n).cursor = none ∧ p.Reached n ∧
      ((List.range (n + 1)).flatMap fun i => (p.page i).records).Pairwise
        (fun a b => p.Precedes a.rkey b.rkey) := by
  intro claimed
  have sublist : ["1", "3"].Sublist ["1", "2", "3"] := by decide
  obtain ⟨n, finished, reached, ordered⟩ :=
    claimed (threeRecords ["1", "3"]) (threeRecords_shrinking sublist) (by decide)
  have last : ((threeRecords ["1", "3"]).page 1).cursor = none := by
    rw [Paging.page_cursor, threeRecords_second sublist]
    rfl
  have two : n = 1 := by
    rcases Nat.lt_trichotomy n 1 with zero | one | more
    · rw [Nat.lt_one_iff.mp zero, threeRecords_first sublist] at finished
      cases finished
    · exact one
    · exact absurd last (reached 1 more)
  have earlier : storedRecord "did:plc:a" (keyed "1")
      ∈ ((threeRecords ["1", "3"]).page 0).records := by
    rw [Paging.page_records, Paging.remaining, threeRecords_listing sublist]
    exact List.mem_cons_self
  have again : storedRecord "did:plc:a" (keyed "1")
      ∈ ((threeRecords ["1", "3"]).page 1).records := by
    rw [Paging.page_records, threeRecords_second sublist]
    exact List.mem_cons_self
  rw [two] at ordered
  have apart : [0, 1].Pairwise _ := (List.pairwise_flatMap.mp ordered).2
  exact ((List.pairwise_cons.mp apart).1 1 (by simp) _ earlier _ again).2 rfl

end MastopodFederation.Guarantees.RecordPages
