import Mathlib

/-!
# Batches of due work, in the order of their times

A pass takes the first keys that are due and handles them in order; a key that cannot be handled
ends the pass, and what was done before stays done. A key leaves the schedule in the end exactly
when passes are not empty and every key up to it can be handled.
-/
namespace MastopodFederation.Lib.DueBatches

variable {σ κ π ρ ε ω : Type}

section Keys
variable (handle : κ → Option π → Except ε ρ)

def written (payloads : κ → Option π) : List κ → List (κ × ρ)
  | [] => []
  | key :: rest =>
    match handle key (payloads key) with
    | .error _ => []
    | .ok result => (key, result) :: written payloads rest

def Fine (payloads : κ → Option π) (key : κ) : Prop :=
  ∃ result, handle key (payloads key) = .ok result

variable {handle}

variable {payloads : κ → Option π} {keys : List κ}

theorem written_congr {others : κ → Option π}
    (same : ∀ key ∈ keys, payloads key = others key) :
    written handle payloads keys = written handle others keys := by
  induction keys with
  | nil => rfl
  | cons key rest ih =>
    simp only [written, same key List.mem_cons_self]
    rw [ih fun other mem => same other (List.mem_cons_of_mem _ mem)]

theorem written_initial (payloads : κ → Option π) (keys : List κ) :
    (written handle payloads keys).map Prod.fst <+: keys := by
  induction keys with
  | nil => exact List.prefix_refl _
  | cons key rest ih =>
    cases handled : handle key (payloads key) with
    | error error => simp [written, handled]
    | ok result => simpa [written, handled] using ih

theorem handled_of_written {key : κ} {result : ρ}
    (mem : (key, result) ∈ written handle payloads keys) :
    handle key (payloads key) = .ok result := by
  induction keys with
  | nil => simp [written] at mem
  | cons first rest ih =>
    cases handled : handle first (payloads first) with
    | error error => simp [written, handled] at mem
    | ok own =>
      simp only [written, handled, List.mem_cons, Prod.mk.injEq] at mem
      rcases mem with ⟨rfl, rfl⟩ | mem
      · exact handled
      · exact ih mem

theorem written_keys
    (fine : ∀ key ∈ keys, Fine handle payloads key) :
    (written handle payloads keys).map Prod.fst = keys := by
  induction keys with
  | nil => rfl
  | cons key rest ih =>
    obtain ⟨result, handled⟩ := fine key List.mem_cons_self
    simp only [written, handled, List.map_cons]
    rw [ih fun other mem => fine other (List.mem_cons_of_mem _ mem)]

end Keys

theorem filter_not_mem_initial [DecidableEq κ] {entries : List (σ × κ)} (nodup : (entries.map Prod.snd).Nodup)
    {front : List κ} (initial : front <+: entries.map Prod.snd) :
    entries.filter (·.2 ∉ front) = entries.drop front.length := by
  induction front generalizing entries with
  | nil => simp
  | cons key rest ih =>
    cases entries with
    | nil => simp at initial
    | cons entry others =>
      simp only [List.map_cons, List.cons_prefix_cons] at initial
      obtain ⟨rfl, initial⟩ := initial
      obtain ⟨apart, othersNodup⟩ := List.nodup_cons.mp nodup
      have kept : others.filter (·.2 ∉ entry.2 :: rest) = others.filter (·.2 ∉ rest) := by
        refine List.filter_congr fun other mem => ?_
        have distinct : other.2 ≠ entry.2 :=
          fun equal => apart (equal ▸ List.mem_map_of_mem mem)
        simp [distinct]
      rw [List.filter_cons_of_neg (by simp), kept, ih othersNodup initial]
      rfl

variable [LinearOrder σ] [LinearOrder κ]

structure Schedule (σ κ : Type) [LinearOrder σ] [LinearOrder κ] where
  entries : List (σ × κ)
  sorted : entries.Pairwise fun a b => a.1 < b.1 ∨ a.1 = b.1 ∧ a.2 < b.2
  nodup : (entries.map Prod.snd).Nodup

namespace Schedule

def keys (schedule : Schedule σ κ) : List κ := schedule.entries.map Prod.snd

def remove (schedule : Schedule σ κ) (key : κ) : Schedule σ κ where
  entries := schedule.entries.filter (·.2 ≠ key)
  sorted := schedule.sorted.sublist List.filter_sublist
  nodup := schedule.nodup.sublist (List.filter_sublist.map _)

def due (schedule : Schedule σ κ) (now : σ) (batch : Nat) : List κ :=
  ((schedule.entries.filter (·.1 ≤ now)).take batch).map Prod.snd

theorem keys_nodup (schedule : Schedule σ κ) : schedule.keys.Nodup := schedule.nodup

variable {entries : List (σ × κ)}

theorem filter_due_eq (now : σ)
    (sorted : entries.Pairwise fun a b => a.1 < b.1 ∨ a.1 = b.1 ∧ a.2 < b.2) :
    entries.filter (·.1 ≤ now) = entries.takeWhile (·.1 ≤ now) := by
  induction entries with
  | nil => rfl
  | cons entry rest ih =>
    obtain ⟨later, restSorted⟩ := List.pairwise_cons.mp sorted
    by_cases come : entry.1 ≤ now
    · simp only [List.filter_cons, List.takeWhile_cons, come, decide_true, if_true, ih restSorted]
    · have none : rest.filter (·.1 ≤ now) = [] := by
        refine List.filter_eq_nil_iff.mpr fun next mem dueToo => come ?_
        have order : entry.1 ≤ next.1 := (later next mem).elim le_of_lt fun same => same.1.le
        exact order.trans (of_decide_eq_true dueToo)
      simp [come, none]

theorem due_prefix (schedule : Schedule σ κ) (now : σ) (batch : Nat) :
    schedule.due now batch <+: schedule.keys := by
  unfold due keys
  rw [filter_due_eq now schedule.sorted]
  exact ((List.take_prefix _ _).trans (List.takeWhile_prefix _)).map _

theorem due_nodup (schedule : Schedule σ κ) (now : σ) (batch : Nat) :
    (schedule.due now batch).Nodup :=
  schedule.keys_nodup.sublist (schedule.due_prefix now batch).sublist

variable {schedule : Schedule σ κ} {entry : σ × κ} {rest : List (σ × κ)}

theorem time_le_of_before {first : σ × κ}
    (split : schedule.entries = first :: rest) (mem : entry ∈ schedule.entries)
    {now : σ} (come : entry.1 ≤ now) : first.1 ≤ now := by
  have sorted := schedule.sorted
  rw [split] at sorted mem
  rcases List.mem_cons.mp mem with rfl | behind
  · exact come
  · have order := (List.pairwise_cons.mp sorted).1 entry behind
    exact (order.elim le_of_lt fun same => same.1.le).trans come

theorem due_cons {first : σ × κ} {now : σ}
    {batch : Nat} (split : schedule.entries = first :: rest) (come : first.1 ≤ now)
    (room : 0 < batch) : ∃ others, schedule.due now batch = first.2 :: others := by
  obtain ⟨size, rfl⟩ : ∃ size, batch = size + 1 := ⟨batch - 1, by omega⟩
  simp [due, split, come]

abbrev Before (a b : σ × κ) : Prop := a.1 < b.1 ∨ a.1 = b.1 ∧ a.2 < b.2

def place (entry : σ × κ) : List (σ × κ) → List (σ × κ)
  | [] => [entry]
  | other :: rest => if Before other entry then other :: place entry rest else entry :: other :: rest

theorem place_perm (entry : σ × κ) (entries : List (σ × κ)) :
    (place entry entries).Perm (entry :: entries) := by
  induction entries with
  | nil => exact List.Perm.refl _
  | cons other rest ih =>
    rw [place]
    split
    · exact (ih.cons other).trans (List.Perm.swap entry other rest)
    · exact List.Perm.refl _

theorem before_trans {a b c : σ × κ} (first : Before a b) (second : Before b c) : Before a c := by
  rcases first with earlier | ⟨same, lower⟩ <;> rcases second with later | ⟨same', lower'⟩
  · exact .inl (earlier.trans later)
  · exact .inl (same' ▸ earlier)
  · exact .inl (same ▸ later)
  · exact .inr ⟨same.trans same', lower.trans lower'⟩

theorem before_of_not {a b : σ × κ} (distinct : a.2 ≠ b.2) (not : ¬ Before a b) : Before b a := by
  rcases lt_trichotomy b.1 a.1 with earlier | same | later
  · exact .inl earlier
  · rcases lt_trichotomy b.2 a.2 with lower | equal | higher
    · exact .inr ⟨same, lower⟩
    · exact absurd equal.symm distinct
    · exact absurd (.inr ⟨same.symm, higher⟩) not
  · exact absurd (.inl later) not

theorem place_sorted (sorted : entries.Pairwise Before)
    (absent : ∀ other ∈ entries, other.2 ≠ entry.2) : (place entry entries).Pairwise Before := by
  induction entries with
  | nil => simp [place]
  | cons other rest ih =>
    obtain ⟨later, restSorted⟩ := List.pairwise_cons.mp sorted
    rw [place]
    split
    · rename_i before
      refine List.pairwise_cons.mpr ⟨fun next mem => ?_, ih restSorted fun next mem =>
        absent next (List.mem_cons_of_mem _ mem)⟩
      rcases List.mem_cons.mp ((place_perm entry rest).mem_iff.mp mem) with rfl | inside
      · exact before
      · exact later next inside
    · rename_i not
      have first : Before entry other := before_of_not (absent other List.mem_cons_self) not
      refine List.pairwise_cons.mpr ⟨fun next mem => ?_, sorted⟩
      rcases List.mem_cons.mp mem with rfl | inside
      · exact first
      · exact before_trans first (later next inside)

def add (schedule : Schedule σ κ) (time : σ) (key : κ) : Schedule σ κ where
  entries := place (time, key) (schedule.remove key).entries
  sorted := place_sorted (schedule.remove key).sorted fun _ mem =>
    of_decide_eq_true (List.mem_filter.mp mem).2
  nodup := by
    have same := (place_perm (time, key) (schedule.remove key).entries).map Prod.snd
    refine same.nodup_iff.mpr (List.nodup_cons.mpr ⟨?_, (schedule.remove key).nodup⟩)
    intro mem
    obtain ⟨entry, inside, equal⟩ := List.mem_map.mp mem
    exact of_decide_eq_true (List.mem_filter.mp inside).2 equal

theorem mem_add {time : σ} {key : κ} :
    entry ∈ (schedule.add time key).entries ↔
      entry = (time, key) ∨ entry ∈ schedule.entries ∧ entry.2 ≠ key := by
  rw [add, (place_perm _ _).mem_iff, List.mem_cons, remove, List.mem_filter]
  simp

theorem add_own {time : σ} {key : κ}
    (mem : (time, key) ∈ schedule.entries) : (schedule.add time key).entries = schedule.entries := by
  have distinct : ∀ {a b : σ × κ}, a ∈ schedule.entries → b ∈ schedule.entries → a.2 = b.2 →
      a = b := fun inside inside' equal => List.inj_on_of_nodup_map schedule.nodup inside inside' equal
  have same : (schedule.add time key).entries.Perm schedule.entries := by
    refine (List.perm_ext_iff_of_nodup (schedule.add time key).nodup.of_map
      schedule.nodup.of_map).mpr fun entry => ?_
    rw [mem_add]
    constructor
    · rintro (rfl | ⟨inside, _⟩)
      · exact mem
      · exact inside
    · intro inside
      by_cases equal : entry.2 = key
      · exact .inl (distinct inside mem equal)
      · exact .inr ⟨inside, equal⟩
  refine same.eq_of_pairwise (fun a b _ _ first second => ?_) (schedule.add time key).sorted
    schedule.sorted
  have loop := before_trans first second
  exact absurd loop (by simp)

end Schedule

structure Store (σ κ π ω : Type) [LinearOrder σ] [LinearOrder κ] where
  schedule : Schedule σ κ
  payloads : κ → Option π
  out : ω

section Pass
variable (handle : κ → Option π → Except ε ρ) (emit : ω → κ → ρ → ω)

def settle (store : Store σ κ π ω) (key : κ) (result : ρ) : Store σ κ π ω where
  schedule := store.schedule.remove key
  payloads := fun other => if other = key then none else store.payloads other
  out := emit store.out key result

def pass : List κ → Store σ κ π ω → Store σ κ π ω × Except ε (List ρ)
  | [], store => (store, .ok [])
  | key :: rest, store =>
    match handle key (store.payloads key) with
    | .error error => (store, .error error)
    | .ok result =>
      let (after, outcome) := pass rest (settle emit store key result)
      (after, outcome.map (result :: ·))

def duePass (batch : Nat) (store : Store σ κ π ω) (now : σ) :
    Store σ κ π ω × Except ε (List ρ) :=
  pass handle emit (store.schedule.due now batch) store

def passes (handle : σ → κ → Option π → Except ε ρ) (batch : Nat) (store : Store σ κ π ω)
    (times : Nat → σ) : Nat → Store σ κ π ω
  | 0 => store
  | count + 1 =>
    (duePass (handle (times count)) emit batch (passes handle batch store times count)
      (times count)).1

def settleAll (results : List (κ × ρ)) (store : Store σ κ π ω) : Store σ κ π ω :=
  results.foldl (fun current entry => settle emit current entry.1 entry.2) store

variable {handle emit}

variable {store : Store σ κ π ω}

theorem settle_payloads_ne {key other : κ} {result : ρ}
    (distinct : other ≠ key) :
    (settle emit store key result).payloads other = store.payloads other := if_neg distinct

theorem pass_store {keys : List κ} (nodup : keys.Nodup) (store : Store σ κ π ω) :
    (pass handle emit keys store).1 =
      settleAll emit (written handle store.payloads keys) store := by
  induction keys generalizing store with
  | nil => rfl
  | cons key rest ih =>
    obtain ⟨apart, restNodup⟩ := List.nodup_cons.mp nodup
    cases handled : handle key (store.payloads key) with
    | error error => simp [pass, written, handled, settleAll]
    | ok result =>
      have same : ∀ other ∈ rest,
          (settle emit store key result).payloads other = store.payloads other :=
        fun other mem => settle_payloads_ne fun equal => apart (equal ▸ mem)
      simp only [pass, written, handled]
      rw [ih restNodup, written_congr same]
      rfl

theorem pass_ok_iff {keys : List κ} (nodup : keys.Nodup) (store : Store σ κ π ω) :
    (∃ results, (pass handle emit keys store).2 = .ok results) ↔
      ∀ key ∈ keys, Fine handle store.payloads key := by
  induction keys generalizing store with
  | nil => simp [pass]
  | cons key rest ih =>
    obtain ⟨apart, restNodup⟩ := List.nodup_cons.mp nodup
    cases handled : handle key (store.payloads key) with
    | error error => simp [pass, Fine, handled]
    | ok result =>
      have same : ∀ other ∈ rest, Fine handle (settle emit store key result).payloads other ↔
          Fine handle store.payloads other := by
        intro other mem
        have distinct : other ≠ key := fun equal => apart (equal ▸ mem)
        rw [Fine, Fine, settle_payloads_ne distinct]
      have restIff := (ih restNodup (settle emit store key result)).trans
        (forall₂_congr same)
      have own : Fine handle store.payloads key := ⟨result, handled⟩
      simp only [pass, handled, List.forall_mem_cons, own, true_and]
      rw [← restIff]
      cases (pass handle emit rest (settle emit store key result)).2 <;> simp [Except.map]

variable (results : List (κ × ρ))

theorem settleAll_payloads (store : Store σ κ π ω) (key : κ) :
    (settleAll emit results store).payloads key =
      if key ∈ results.map Prod.fst then none else store.payloads key := by
  induction results generalizing store with
  | nil => simp [settleAll]
  | cons entry rest ih =>
    rw [settleAll, List.foldl_cons, ← settleAll, ih]
    by_cases later : key ∈ rest.map Prod.fst
    · simp [later]
    · simp [later, settle]

theorem settleAll_entries (store : Store σ κ π ω) :
    (settleAll emit results store).schedule.entries =
      store.schedule.entries.filter (·.2 ∉ results.map Prod.fst) := by
  induction results generalizing store with
  | nil => simp [settleAll]
  | cons entry rest ih =>
    rw [settleAll, List.foldl_cons, ← settleAll, ih, settle, Schedule.remove, List.filter_filter]
    refine List.filter_congr fun other _ => ?_
    by_cases own : other.2 = entry.1 <;> simp [own]

theorem settleAll_out (store : Store σ κ π ω) : (settleAll emit results store).out =
      results.foldl (fun out entry => emit out entry.1 entry.2) store.out := by
  induction results generalizing store with
  | nil => rfl
  | cons entry rest ih =>
    rw [settleAll, List.foldl_cons, ← settleAll, ih]
    rfl

section Due
variable (handle emit)

def settledAt (batch : Nat) (store : Store σ κ π ω) (now : σ) : List (κ × ρ) :=
  written handle store.payloads (store.schedule.due now batch)

variable {handle emit} {batch : Nat} {store : Store σ κ π ω} {now : σ}

theorem settledAt_prefix :
    (settledAt handle batch store now).map Prod.fst <+: store.schedule.keys :=
  (written_initial _ _).trans (store.schedule.due_prefix now batch)

theorem duePass_entries :
    (duePass handle emit batch store now).1.schedule.entries =
      store.schedule.entries.drop (settledAt handle batch store now).length := by
  rw [duePass, pass_store (store.schedule.due_nodup now batch), settleAll_entries]
  have initial : (settledAt handle batch store now).map Prod.fst <+: store.schedule.keys :=
    settledAt_prefix
  have dropped := filter_not_mem_initial store.schedule.nodup initial
  rw [List.length_map] at dropped
  exact dropped

variable {key : κ}

theorem not_settled_of_kept
    (kept : key ∈ (duePass handle emit batch store now).1.schedule.keys) :
    key ∉ (settledAt handle batch store now).map Prod.fst := by
  rw [duePass, pass_store (store.schedule.due_nodup now batch), Schedule.keys,
    settleAll_entries] at kept
  obtain ⟨entry, mem, rfl⟩ := List.mem_map.mp kept
  exact of_decide_eq_true (List.mem_filter.mp mem).2

theorem duePass_payloads
    (kept : key ∉ (settledAt handle batch store now).map Prod.fst) :
    (duePass handle emit batch store now).1.payloads key = store.payloads key := by
  rw [duePass, pass_store (store.schedule.due_nodup now batch), settleAll_payloads]
  exact if_neg kept

theorem fine_of_settled
    (mem : key ∈ (settledAt handle batch store now).map Prod.fst) :
    Fine handle store.payloads key := by
  obtain ⟨⟨own, result⟩, inside, rfl⟩ := List.mem_map.mp mem
  exact ⟨result, handled_of_written inside⟩

theorem settledAt_keys (fine : ∀ key ∈ store.schedule.due now batch, Fine handle store.payloads key) :
    (settledAt handle batch store now).map Prod.fst = store.schedule.due now batch :=
  written_keys fine

theorem settledAt_pos {first : σ × κ} {rest : List (σ × κ)}
    (split : store.schedule.entries = first :: rest) (come : first.1 ≤ now) (room : 0 < batch)
    (fine : Fine handle store.payloads first.2) :
    0 < (settledAt handle batch store now).length := by
  obtain ⟨others, due⟩ := Schedule.due_cons split come room
  obtain ⟨result, handled⟩ := fine
  simp [settledAt, due, written, handled]

end Due

def Blocked (handle : σ → κ → Option π → Except ε ρ) (bad : σ × κ) (behind : List (σ × κ))
    (store : Store σ κ π ω) : Prop :=
  (∃ front, store.schedule.entries = front ++ bad :: behind) ∧
    ∀ now, ¬ Fine (handle now) store.payloads bad.2

variable {handle : σ → κ → Option π → Except ε ρ} {behind : List (σ × κ)}

theorem Blocked.kept {bad : σ × κ}
    (blocked : Blocked handle bad behind store) (batch : Nat) (now : σ) :
    Blocked handle bad behind (duePass (handle now) emit batch store now).1 := by
  obtain ⟨⟨front, split⟩, notFine⟩ := blocked
  have away : bad.2 ∉ (settledAt (handle now) batch store now).map Prod.fst :=
    fun mem => notFine now (fine_of_settled mem)
  have short : (settledAt (handle now) batch store now).length ≤ front.length := by
    by_contra long
    refine away ?_
    have initial : (settledAt (handle now) batch store now).map Prod.fst <+:
      store.schedule.keys := settledAt_prefix
    have inside : front.length <
        ((settledAt (handle now) batch store now).map Prod.fst).length := by
      rw [List.length_map]
      omega
    have there := initial.getElem inside
    simp only [Schedule.keys, split, List.map_append, List.map_cons] at there
    rw [List.getElem_append_right (by simp)] at there
    simp only [List.length_map, Nat.sub_self, List.getElem_cons_zero] at there
    rw [← there]
    exact List.getElem_mem inside
  constructor
  · refine ⟨front.drop (settledAt (handle now) batch store now).length, ?_⟩
    rw [duePass_entries, split, List.drop_append_of_le_length short]
  · intro later
    rw [Fine, duePass_payloads away]
    exact notFine later

theorem Blocked.passes {bad : σ × κ}
    (blocked : Blocked handle bad behind store) (batch : Nat) (times : Nat → σ) (count : Nat) :
    Blocked handle bad behind (passes emit handle batch store times count) := by
  induction count with
  | zero => exact blocked
  | succ count ih => exact ih.kept batch (times count)

theorem passes_succ (batch : Nat) (store : Store σ κ π ω) (times : Nat → σ) (count : Nat) :
    passes emit handle batch store times (count + 1) =
      passes emit handle batch (duePass (handle (times 0)) emit batch store (times 0)).1
        (fun n => times (n + 1)) count := by
  induction count with
  | zero => rfl
  | succ count ih => rw [passes, ih, passes]

variable {batch : Nat}

theorem leaves_of_fine (room : 0 < batch) {earlier later : List (σ × κ)}
    {entry : σ × κ} (store : Store σ κ π ω) (times : Nat → σ)
    (split : store.schedule.entries = earlier ++ entry :: later)
    (come : ∀ count, entry.1 ≤ times count)
    (fine : ∀ now, ∀ other ∈ earlier ++ [entry], Fine (handle now) store.payloads other.2) :
    ∃ count, entry.2 ∉ (passes emit handle batch store times count).schedule.keys := by
  induction size : earlier.length using Nat.strong_induction_on generalizing earlier store times with
  | _ size ih =>
    have pos : 0 < (settledAt (handle (times 0)) batch store (times 0)).length := by
      cases earlier with
      | nil => exact settledAt_pos split (come 0) room (fine _ entry (by simp))
      | cons first rest =>
        have mem : entry ∈ store.schedule.entries := by simp [split]
        exact settledAt_pos split (Schedule.time_le_of_before split mem (come 0)) room
          (fine _ first (by simp))
    have after : (duePass (handle (times 0)) emit batch store (times 0)).1.schedule.entries = _ :=
      duePass_entries
    rw [split] at after
    by_cases past : (settledAt (handle (times 0)) batch store (times 0)).length ≤ earlier.length
    · rw [List.drop_append_of_le_length past] at after
      have fineAfter : ∀ now, ∀ other ∈
          earlier.drop (settledAt (handle (times 0)) batch store (times 0)).length ++ [entry],
          Fine (handle now)
            (duePass (handle (times 0)) emit batch store (times 0)).1.payloads other.2 := by
        intro now other mem
        have kept : other.2 ∈ (duePass (handle (times 0)) emit batch store (times 0)).1.schedule.keys := by
          rw [Schedule.keys, after]
          refine List.mem_map_of_mem ?_
          rcases List.mem_append.mp mem with early | last
          · exact List.mem_append_left _ early
          · rw [List.mem_singleton.mp last]
            simp
        rw [Fine, duePass_payloads (not_settled_of_kept kept)]
        refine fine now other ?_
        rcases List.mem_append.mp mem with early | last
        · exact List.mem_append_left _ (List.mem_of_mem_drop early)
        · exact List.mem_append_right _ last
      obtain ⟨count, gone⟩ := ih _ (by rw [List.length_drop]; omega) _ (fun n => times (n + 1))
        after (fun n => come (n + 1)) fineAfter rfl
      exact ⟨count + 1, by rw [passes_succ]; exact gone⟩
    · refine ⟨1, fun kept => ?_⟩
      have nodup := store.schedule.nodup
      rw [split, List.map_append, List.map_cons] at nodup
      have apart := (List.nodup_cons.mp (List.nodup_append.mp nodup).2.1).1
      change entry.2 ∈ (duePass (handle (times 0)) emit batch store (times 0)).1.schedule.entries.map _ at kept
      obtain ⟨size', count⟩ : ∃ size', (settledAt (handle (times 0)) batch store (times 0)).length =
          earlier.length + 1 + size' := ⟨_, (Nat.add_sub_of_le (by omega)).symm⟩
      rw [after, count, Nat.add_assoc, List.drop_append] at kept
      simp only [Nat.add_sub_cancel_left, Nat.add_comm 1, List.drop_succ_cons] at kept
      rw [List.drop_eq_nil_of_le (by omega), List.nil_append] at kept
      obtain ⟨other, mem, same⟩ := List.mem_map.mp kept
      exact apart (same ▸ List.mem_map_of_mem (List.mem_of_mem_drop mem))

theorem passes_zero (store : Store σ κ π ω) (times : Nat → σ) (count : Nat) :
    passes emit handle 0 store times count = store := by
  induction count with
  | zero => rfl
  | succ count ih => simp [passes, ih, duePass, Schedule.due, pass]

/-- A due key leaves the schedule exactly when passes are not empty and every key up to it
can be handled. -/
theorem leaves_iff {earlier later : List (σ × κ)} {entry : σ × κ}
    (store : Store σ κ π ω) (times : Nat → σ)
    (split : store.schedule.entries = earlier ++ entry :: later)
    (come : ∀ count, entry.1 ≤ times count) (Harmless : κ → Option π → Prop)
    (timeless : ∀ now key, Fine (handle now) store.payloads key ↔
      Harmless key (store.payloads key)) :
    (∃ count, entry.2 ∉ (passes emit handle batch store times count).schedule.keys) ↔
      0 < batch ∧ ∀ other ∈ earlier ++ [entry], Harmless other.2 (store.payloads other.2) := by
  constructor
  · intro ⟨count, gone⟩
    constructor
    · by_contra none
      obtain rfl : batch = 0 := by omega
      rw [passes_zero, Schedule.keys, split] at gone
      exact gone (by simp)
    · intro bad mem
      by_contra notFine
      have kept : ∀ front behind, store.schedule.entries = front ++ bad :: behind →
          entry.2 ∈ (bad :: behind).map Prod.snd → False := by
        intro front behind before mem
        obtain ⟨⟨front, still⟩, _⟩ : Blocked handle bad behind
          (passes emit handle batch store times count) :=
            Blocked.passes ⟨⟨front, before⟩, fun now fine => notFine ((timeless now _).mp fine)⟩
              batch times count
        rw [Schedule.keys, still, List.map_append] at gone
        exact gone (List.mem_append_right _ mem)
      rcases List.mem_append.mp mem with early | last
      · obtain ⟨front, rest, rfl⟩ := List.append_of_mem early
        exact kept front (rest ++ entry :: later) (by simp [split]) (by simp)
      · obtain rfl := List.mem_singleton.mp last
        exact kept earlier later split (by simp)
  · intro ⟨room, fine⟩
    exact leaves_of_fine room store times split come fun now other mem =>
      (timeless now other.2).mpr (fine other mem)

variable {Written : ω → Prop} {key : κ} {result : ρ}

omit [LinearOrder κ] in
theorem written_foldl (own : ∀ out, Written (emit out key result))
    (stable : ∀ out other value, Written out → Written (emit out other value))
    (results : List (κ × ρ)) (out : ω) (start : Written out ∨ (key, result) ∈ results) :
    Written (results.foldl (fun current entry => emit current entry.1 entry.2) out) := by
  induction results generalizing out with
  | nil => simpa using start
  | cons entry rest ih =>
    refine ih _ ?_
    rcases start with already | mem
    · exact .inl (stable out entry.1 entry.2 already)
    · rcases List.mem_cons.mp mem with rfl | later
      · exact .inl (own out)
      · exact .inr later

theorem written_of_left {times : Nat → σ}
    (handled : ∀ now, handle now key (store.payloads key) = .ok result)
    (own : ∀ out, Written (emit out key result))
    (stable : ∀ out other value, Written out → Written (emit out other value))
    (scheduled : key ∈ store.schedule.keys) (count : Nat) :
    (key ∈ (passes emit handle batch store times count).schedule.keys ∧
      (passes emit handle batch store times count).payloads key = store.payloads key) ∨
      ((passes emit handle batch store times count).payloads key = none ∧
        Written (passes emit handle batch store times count).out) := by
  induction count with
  | zero => exact .inl ⟨scheduled, rfl⟩
  | succ count ih =>
    have out : (passes emit handle batch store times (count + 1)).out = _ :=
      (congrArg Store.out (pass_store (Schedule.due_nodup _ _ _) _)).trans
        (settleAll_out (settledAt (handle (times count)) batch
          (passes emit handle batch store times count) (times count)) _)
    have payload : (passes emit handle batch store times (count + 1)).payloads key = _ :=
      (congrArg (fun after => Store.payloads after key)
        (pass_store (Schedule.due_nodup _ _ _) _)).trans
        (settleAll_payloads (settledAt (handle (times count)) batch
          (passes emit handle batch store times count) (times count)) _ key)
    rcases ih with ⟨there, same⟩ | ⟨empty, already⟩
    · by_cases settled : key ∈ (settledAt (handle (times count)) batch
        (passes emit handle batch store times count) (times count)).map Prod.fst
      · rw [if_pos settled] at payload
        obtain ⟨⟨_, other⟩, mem, rfl⟩ := List.mem_map.mp settled
        have equal := handled_of_written mem
        rw [same, handled] at equal
        cases equal
        rw [out]
        exact .inr ⟨payload, written_foldl own stable _ _ (.inr mem)⟩
      · refine .inl ⟨?_, (duePass_payloads settled).trans same⟩
        rw [passes, duePass, pass_store (Schedule.due_nodup _ _ _), Schedule.keys,
          settleAll_entries]
        obtain ⟨entry, mem, rfl⟩ := List.mem_map.mp there
        exact List.mem_map_of_mem (List.mem_filter.mpr ⟨mem, decide_eq_true settled⟩)
    · rw [out]
      refine .inr ⟨?_, written_foldl own stable _ _ (.inl already)⟩
      rw [payload, empty, ite_self]

end Pass
end MastopodFederation.Lib.DueBatches
