import Mathlib.Data.List.Induction

/-!
# Writes that wait

Items go to a queue, flushes take them from it, and they land in an index that has one item for
each key. Where flushes under way share no key and nothing that waits is erased, the index is
never behind: each item is in it or waits, unless it was erased or replaced since.
-/
namespace MastopodFederation.Lib.WriteBehind

variable {E D K V O : Type}

structure Reading (E D K V O : Type) where
  content : E → D
  number : E → Nat
  key : D → K
  wrote : V → Option E
  erases : V → D → Bool
  /-- what the item was made from -/
  origin : E → O

structure Buffer (E K V : Type) where
  index : K → Option E
  queue : List E
  flights : Nat → List E
  log : List V

namespace Buffer

def Waits (b : Buffer E K V) (e : E) : Prop := e ∈ b.queue ∨ ∃ i, e ∈ b.flights i

def Holds (b : Buffer E K V) (e : E) : Prop := b.Waits e ∨ ∃ k, b.index k = some e

def Later (b : Buffer E K V) (n : Nat) (P : V → Prop) : Prop :=
  ∃ k v, n < k ∧ b.log[k]? = some v ∧ P v

def note (b : Buffer E K V) (v : V) : Buffer E K V := { b with log := b.log ++ [v] }

variable {n : Nat} {P : V → Prop}

theorem Later.note {b : Buffer E K V} (later : b.Later n P) (v : V) :
    (b.note v).Later n P := by
  obtain ⟨k, w, after, is, holds⟩ := later
  refine ⟨k, w, after, ?_, holds⟩
  have bound := (List.getElem?_eq_some_iff.1 is).1
  simp only [Buffer.note]
  rw [List.getElem?_append_left bound, is]

theorem later_note {b : Buffer E K V} {v : V}
    (later : (b.note v).Later n P) : b.Later n P ∨ (n < b.log.length ∧ P v) := by
  obtain ⟨k, w, after, is, holds⟩ := later
  simp only [Buffer.note, List.getElem?_append] at is
  split at is
  · exact .inl ⟨k, w, after, is, holds⟩
  · have last : k = b.log.length := by
      have bound := (List.getElem?_eq_some_iff.1 is).1
      simp only [List.length_singleton] at bound
      omega
    subst last
    simp only [Nat.sub_self, List.getElem?_cons_zero, Option.some.injEq] at is
    subst is
    exact .inr ⟨after, holds⟩

theorem later_last (b : Buffer E K V) {v : V} (before : n < b.log.length)
    (holds : P v) : (b.note v).Later n P :=
  ⟨b.log.length, v, before, by simp [note], holds⟩

end Buffer

section
variable (r : Reading E D K V O)

def Reading.keyOf (e : E) : K := r.key (r.content e)

def Reading.Before (x y : E) : Prop := r.keyOf x = r.keyOf y → r.number x < r.number y

def Reading.landed [DecidableEq K] (index : K → Option E) (items : List E) : K → Option E :=
  items.foldl (fun index e k => if k = r.keyOf e then some e else index k) index

def Written (b : Buffer E K V) (e : E) : Prop :=
  ∃ v, b.log[r.number e]? = some v ∧ r.wrote v = some e

structure Sound (b : Buffer E K V) : Prop where
  numbered : ∀ n v e, b.log[n]? = some v → r.wrote v = some e → r.number e = n
  logged : ∀ e, b.Holds e → Written r b e
  live : ∀ e, b.Holds e → ¬ b.Later (r.number e) fun v => r.erases v (r.content e) = true
  keyed : ∀ k e, b.index k = some e → r.keyOf e = k
  queue : b.queue.Pairwise r.Before
  flights : ∀ i, (b.flights i).Pairwise r.Before
  ahead : ∀ i, ∀ x ∈ b.flights i, ∀ y ∈ b.queue, r.Before x y
  apart : ∀ i j, i ≠ j → ∀ x ∈ b.flights i, ∀ y ∈ b.flights j, r.keyOf x ≠ r.keyOf y
  first : ∀ k e, b.index k = some e → ∀ x, b.Waits x → r.Before e x

/-- The item was erased or replaced after its write, or one with its content waits that was made from
the same, or one with its content is in the index. -/
def Covered (b : Buffer E K V) (e : E) : Prop :=
  (b.Later (r.number e) fun v => r.erases v (r.content e) = true) ∨
  (b.Later (r.number e) fun v =>
    ∃ x, r.wrote v = some x ∧ r.keyOf x = r.keyOf e ∧ r.content x ≠ r.content e) ∨
  ∃ x, ((b.Waits x ∧ r.origin x = r.origin e) ∨ b.index (r.keyOf e) = some x) ∧
    r.content x = r.content e ∧ r.number e ≤ r.number x

end

section
variable {r : Reading E D K V O} {b : Buffer E K V}

variable {e : E}

theorem Sound.number_lt (sound : Sound r b) (held : b.Holds e) : r.number e < b.log.length := by
  obtain ⟨v, is, -⟩ := sound.logged e held
  exact (List.getElem?_eq_some_iff.1 is).1

variable {v : V}

theorem Sound.note (sound : Sound r b) (silent : r.wrote v = none)
    (harmless : ∀ e, b.Holds e → r.erases v (r.content e) = false) : Sound r (b.note v) where
  numbered n w e is wrote := by
    simp only [Buffer.note, List.getElem?_append] at is
    split at is
    · exact sound.numbered n w e is wrote
    · have mem := List.mem_of_getElem? is
      simp only [List.mem_singleton] at mem
      simp [mem, silent] at wrote
  logged e held := by
    obtain ⟨w, is, wrote⟩ := sound.logged e held
    refine ⟨w, ?_, wrote⟩
    simp only [Buffer.note]
    rw [List.getElem?_append_left (sound.number_lt held), is]
  live e held later := by
    obtain earlier | ⟨-, erased⟩ := Buffer.later_note later
    · exact sound.live e held earlier
    · simp [harmless e held] at erased
  keyed := sound.keyed
  queue := sound.queue
  flights := sound.flights
  ahead := sound.ahead
  apart := sound.apart
  first := sound.first

theorem Covered.note (covered : Covered r b e) (v : V) : Covered r (b.note v) e := by
  obtain erased | replaced | stored := covered
  · exact .inl (erased.note v)
  · exact .inr (.inl (replaced.note v))
  · exact .inr (.inr stored)

namespace Buffer

def push (b : Buffer E K V) (e : E) (v : V) : Buffer E K V :=
  { b with queue := b.queue ++ [e], log := b.log ++ [v] }

theorem waits_push {b : Buffer E K V} {e : E} {v : V} {x : E} :
    (b.push e v).Waits x ↔ b.Waits x ∨ x = e := by
  simp only [Waits, push, List.mem_append, List.mem_singleton]
  tauto

theorem holds_push {b : Buffer E K V} {e : E} {v : V} {x : E} :
    (b.push e v).Holds x ↔ b.Holds x ∨ x = e := by
  simp only [Holds, waits_push]
  simp only [push]
  tauto

end Buffer

theorem Sound.push (sound : Sound r b) (wrote : r.wrote v = some e)
    (fresh : r.number e = b.log.length) (harmless : ∀ d, r.erases v d = false) :
    Sound r (b.push e v) where
  numbered n w x is wrote' := by
    simp only [Buffer.push, List.getElem?_append] at is
    split at is
    · exact sound.numbered n w x is wrote'
    · have bound := (List.getElem?_eq_some_iff.1 is).1
      have mem := List.mem_of_getElem? is
      simp only [List.mem_singleton] at mem
      simp only [List.length_singleton] at bound
      rw [mem, wrote, Option.some_inj] at wrote'
      rw [← wrote', fresh]
      omega
  logged x held := by
    obtain old | rfl := Buffer.holds_push.1 held
    · obtain ⟨w, is, wrote'⟩ := sound.logged x old
      refine ⟨w, ?_, wrote'⟩
      simp only [Buffer.push]
      rw [List.getElem?_append_left (sound.number_lt old), is]
    · exact ⟨v, by simp [Buffer.push, fresh], wrote⟩
  live x held later := by
    have later' : (b.note v).Later (r.number x) fun w => r.erases w (r.content x) = true := later
    obtain earlier | ⟨-, erased⟩ := Buffer.later_note later'
    · obtain old | rfl := Buffer.holds_push.1 held
      · exact sound.live x old earlier
      · obtain ⟨k, w, after, is, -⟩ := earlier
        have bound := (List.getElem?_eq_some_iff.1 is).1
        omega
    · simp [harmless] at erased
  keyed := sound.keyed
  queue := by
    refine List.pairwise_append.2 ⟨sound.queue, List.pairwise_singleton _ _, fun x mem y last _ => ?_⟩
    rw [List.mem_singleton.1 last, fresh]
    exact sound.number_lt (.inl (.inl mem))
  flights := sound.flights
  ahead i x mem y queued same := by
    obtain old | last := List.mem_append.1 queued
    · exact sound.ahead i x mem y old same
    · rw [List.mem_singleton.1 last, fresh]
      exact sound.number_lt (.inl (.inr ⟨i, mem⟩))
  apart := sound.apart
  first k x is y waits same := by
    obtain old | rfl := Buffer.waits_push.1 waits
    · exact sound.first k x is y old same
    · rw [fresh]
      exact sound.number_lt (.inr ⟨k, is⟩)

theorem Covered.push {x : E} (covered : Covered r b x) : Covered r (b.push e v) x := by
  obtain erased | replaced | ⟨y, stored, same⟩ := covered
  · exact .inl (erased.note v)
  · exact .inr (.inl (replaced.note v))
  · exact .inr (.inr ⟨y, stored.imp (.imp_left fun waits => Buffer.waits_push.2 (.inl waits)) id, same⟩)

theorem covered_push {x : E} (origin : r.origin e = r.origin x)
    (same : r.content e = r.content x) (later : r.number x ≤ r.number e) :
    Covered r (b.push e v) x :=
  .inr (.inr ⟨e, .inl ⟨Buffer.waits_push.2 (.inr rfl), origin⟩, same, later⟩)

namespace Buffer

def take (b : Buffer E K V) (i : Nat) : Buffer E K V :=
  { b with queue := [], flights := Function.update b.flights i b.queue }

def unshift (b : Buffer E K V) (i : Nat) : Buffer E K V :=
  { b with queue := b.flights i ++ b.queue, flights := Function.update b.flights i [] }

theorem waits_take {b : Buffer E K V} {i : Nat} (free : b.flights i = []) {x : E} :
    (b.take i).Waits x ↔ b.Waits x := by
  simp only [Waits, take, List.not_mem_nil, false_or, Function.update_apply]
  constructor
  · rintro ⟨j, mem⟩
    split at mem
    · exact .inl mem
    · exact .inr ⟨j, mem⟩
  · rintro (mem | ⟨j, mem⟩)
    · exact ⟨i, by rwa [if_pos rfl]⟩
    · refine ⟨j, ?_⟩
      rw [if_neg]
      · exact mem
      · rintro rfl
        simp [free] at mem

theorem waits_unshift {b : Buffer E K V} {i : Nat} {x : E} :
    (b.unshift i).Waits x ↔ b.Waits x := by
  simp only [Waits, unshift, List.mem_append, Function.update_apply]
  constructor
  · rintro ((mem | mem) | ⟨j, mem⟩)
    · exact .inr ⟨i, mem⟩
    · exact .inl mem
    · split at mem
      · simp at mem
      · exact .inr ⟨j, mem⟩
  · rintro (mem | ⟨j, mem⟩)
    · exact .inl (.inr mem)
    · by_cases same : j = i
      · exact .inl (.inl (same ▸ mem))
      · exact .inr ⟨j, by rwa [if_neg same]⟩

end Buffer

theorem Sound.rearrange (sound : Sound r b) {c : Buffer E K V} (index : c.index = b.index)
    (log : c.log = b.log) (waits : ∀ x, c.Waits x ↔ b.Waits x) (queue : c.queue.Pairwise r.Before)
    (flights : ∀ i, (c.flights i).Pairwise r.Before)
    (ahead : ∀ i, ∀ x ∈ c.flights i, ∀ y ∈ c.queue, r.Before x y)
    (apart : ∀ i j, i ≠ j → ∀ x ∈ c.flights i, ∀ y ∈ c.flights j, r.keyOf x ≠ r.keyOf y) :
    Sound r c where
  numbered := by
    rw [log]
    exact sound.numbered
  logged e held := by
    unfold Written
    rw [log]
    exact sound.logged e (by simpa only [Buffer.Holds, index, waits] using held)
  live e held later := by
    have later' : b.Later (r.number e) fun v => r.erases v (r.content e) = true := by
      simpa only [Buffer.Later, log] using later
    exact sound.live e (by simpa only [Buffer.Holds, index, waits] using held) later'
  keyed := by
    rw [index]
    exact sound.keyed
  queue := queue
  flights := flights
  ahead := ahead
  apart := apart
  first k e is x held := by
    rw [index] at is
    exact sound.first k e is x ((waits x).1 held)

theorem Covered.rearrange (covered : Covered r b e) {c : Buffer E K V}
    (index : c.index = b.index) (log : c.log = b.log) (waits : ∀ x, c.Waits x ↔ b.Waits x) :
    Covered r c e := by
  unfold Covered Buffer.Later at covered ⊢
  simpa only [index, log, waits] using covered

theorem Sound.take (sound : Sound r b) {i : Nat} (free : b.flights i = [])
    (apart : ∀ x ∈ b.queue, ∀ j, ∀ y ∈ b.flights j, r.keyOf y ≠ r.keyOf x) :
    Sound r (b.take i) := by
  refine sound.rearrange rfl rfl (fun x => Buffer.waits_take free) List.Pairwise.nil ?_ ?_ ?_
  · intro j
    simp only [Buffer.take, Function.update_apply]
    split
    · exact sound.queue
    · exact sound.flights j
  · intro j x mem y queued
    simp [Buffer.take] at queued
  · intro j k other x first y second
    simp only [Buffer.take, Function.update_apply] at first second
    split at first <;> split at second
    · omega
    · exact (apart x first k y second).symm
    · exact apart y second j x first
    · exact sound.apart j k other x first y second

theorem Sound.unshift (sound : Sound r b) (i : Nat) : Sound r (b.unshift i) := by
  refine sound.rearrange rfl rfl (fun x => Buffer.waits_unshift) ?_ ?_ ?_ ?_
  · exact List.pairwise_append.2 ⟨sound.flights i, sound.queue, sound.ahead i⟩
  · intro j
    simp only [Buffer.unshift, Function.update_apply]
    split
    · exact List.Pairwise.nil
    · exact sound.flights j
  · intro j x mem y queued same
    simp only [Buffer.unshift, Function.update_apply] at mem queued
    split at mem
    · simp at mem
    · case _ other =>
      obtain back | old := List.mem_append.1 queued
      · exact absurd same (sound.apart j i other x mem y back)
      · exact sound.ahead j x mem y old same
  · intro j k other x first y second
    simp only [Buffer.unshift, Function.update_apply] at first second
    split at first
    · simp at first
    · split at second
      · simp at second
      · exact sound.apart j k other x first y second

theorem Covered.take (covered : Covered r b e) {i : Nat} (free : b.flights i = []) :
    Covered r (b.take i) e :=
  covered.rearrange rfl rfl fun _ => Buffer.waits_take free

theorem Covered.unshift (covered : Covered r b e) (i : Nat) :
    Covered r (b.unshift i) e :=
  covered.rearrange rfl rfl fun _ => Buffer.waits_unshift

section Landing
variable [DecidableEq K]

theorem landed_cases (index : K → Option E) (items : List E) (ordered : items.Pairwise r.Before)
    (k : K) :
    (∃ e ∈ items, r.keyOf e = k ∧ r.landed index items k = some e ∧
      ∀ x ∈ items, r.keyOf x = k → r.number x ≤ r.number e) ∨
    ((∀ e ∈ items, r.keyOf e ≠ k) ∧ r.landed index items k = index k) := by
  induction items using List.reverseRecOn with
  | nil => exact .inr ⟨by simp, rfl⟩
  | append_singleton items last ih =>
    obtain ⟨before, -, order⟩ := List.pairwise_append.1 ordered
    have step : r.landed index (items ++ [last]) k =
        if k = r.keyOf last then some last else r.landed index items k := by
      simp [Reading.landed, List.foldl_append]
    by_cases here : k = r.keyOf last
    · refine .inl ⟨last, by simp, here.symm, by rw [step, if_pos here], fun x mem same => ?_⟩
      obtain old | is := List.mem_append.1 mem
      · exact Nat.le_of_lt (order x old last (by simp) (same.trans here))
      · exact Nat.le_of_eq (congrArg r.number (List.mem_singleton.1 is))
    · rw [step, if_neg here]
      obtain ⟨e, mem, key, is, newest⟩ | ⟨none, same⟩ := ih before
      · refine .inl ⟨e, by simp [mem], key, is, fun x mem' same => ?_⟩
        obtain old | last' := List.mem_append.1 mem'
        · exact newest x old same
        · rw [List.mem_singleton.1 last'] at same
          exact absurd same.symm here
      · refine .inr ⟨fun e mem key => ?_, same⟩
        obtain old | last' := List.mem_append.1 mem
        · exact none e old key
        · rw [List.mem_singleton.1 last'] at key
          exact here key.symm

def Reading.land (r : Reading E D K V O) (b : Buffer E K V) (i : Nat) : Buffer E K V :=
  { b with index := r.landed b.index (b.flights i), flights := Function.update b.flights i [] }

variable {x : E}

theorem waits_land {i : Nat} :
    (r.land b i).Waits x ↔ x ∈ b.queue ∨ ∃ j, j ≠ i ∧ x ∈ b.flights j := by
  simp only [Buffer.Waits, Reading.land, Function.update_apply]
  refine or_congr_right (exists_congr fun j => ?_)
  split <;> simp_all

theorem waits_cases (waits : b.Waits x) (i : Nat) :
    x ∈ b.flights i ∨ (r.land b i).Waits x := by
  obtain queued | ⟨j, mem⟩ := waits
  · exact .inr (waits_land.2 (.inl queued))
  · by_cases same : j = i
    · exact .inl (same ▸ mem)
    · exact .inr (waits_land.2 (.inr ⟨j, same, mem⟩))

theorem Sound.holds_land (sound : Sound r b) {i : Nat} (held : (r.land b i).Holds x) :
    b.Holds x := by
  obtain waits | ⟨k, is⟩ := held
  · obtain queued | ⟨j, -, mem⟩ := waits_land.1 waits
    · exact .inl (.inl queued)
    · exact .inl (.inr ⟨j, mem⟩)
  · obtain ⟨e, mem, -, landed, -⟩ | ⟨-, same⟩ :=
      landed_cases b.index (b.flights i) (sound.flights i) k
    · have is : r.landed b.index (b.flights i) k = some _ := is
      rw [landed, Option.some_inj] at is
      exact .inl (.inr ⟨i, is ▸ mem⟩)
    · exact .inr ⟨k, same.symm.trans is⟩

theorem Sound.land (sound : Sound r b) (i : Nat) : Sound r (r.land b i) where
  numbered := sound.numbered
  logged e held := sound.logged e (sound.holds_land held)
  live e held later := sound.live e (sound.holds_land held) later
  keyed k e is := by
    obtain ⟨x, -, key, landed, -⟩ | ⟨-, same⟩ :=
      landed_cases b.index (b.flights i) (sound.flights i) k
    · have is : r.landed b.index (b.flights i) k = some _ := is
      rw [landed, Option.some_inj] at is
      exact is ▸ key
    · exact sound.keyed k e (same.symm.trans is)
  queue := sound.queue
  flights j := by
    simp only [Reading.land, Function.update_apply]
    split
    · exact List.Pairwise.nil
    · exact sound.flights j
  ahead j x mem y queued := by
    simp only [Reading.land, Function.update_apply] at mem
    split at mem
    · simp at mem
    · exact sound.ahead j x mem y queued
  apart j k other x first y second := by
    simp only [Reading.land, Function.update_apply] at first second
    split at first
    · simp at first
    · split at second
      · simp at second
      · exact sound.apart j k other x first y second
  first k e is x waits same := by
    obtain ⟨y, mem, -, landed, -⟩ | ⟨-, unchanged⟩ :=
      landed_cases b.index (b.flights i) (sound.flights i) k
    · have is : r.landed b.index (b.flights i) k = some _ := is
      rw [landed, Option.some_inj] at is
      subst is
      obtain queued | ⟨j, other, mem'⟩ := waits_land.1 waits
      · exact sound.ahead i y mem x queued same
      · exact absurd same (sound.apart i j (Ne.symm other) y mem x mem')
    · obtain queued | ⟨j, -, mem'⟩ := waits_land.1 waits
      · exact sound.first k e (unchanged.symm.trans is) x (.inl queued) same
      · exact sound.first k e (unchanged.symm.trans is) x (.inr ⟨j, mem'⟩) same

theorem Sound.covered_land (sound : Sound r b) {e : E} (written : Written r b e)
    (covered : Covered r b e) (i : Nat) :
    Covered r (r.land b i) e := by
  obtain erased | replaced | ⟨x, stored, same, later⟩ := covered
  · exact .inl erased
  · exact .inr (.inl replaced)
  · have key : r.keyOf x = r.keyOf e := congrArg r.key same
    -- the item with the content of `e` waits still, or the index has an item of its key now
    have found : ((r.land b i).Waits x ∧ r.origin x = r.origin e) ∨ ∃ y, (r.land b i).index (r.keyOf e) = some y ∧
        b.Holds y ∧ r.number x ≤ r.number y := by
      obtain ⟨y, mem, yKey, landed, newest⟩ | ⟨none, unchanged⟩ :=
        landed_cases b.index (b.flights i) (sound.flights i) (r.keyOf e)
      · obtain ⟨waits, origin⟩ | is := stored
        · obtain here | still := waits_cases (r := r) waits i
          · exact .inr ⟨y, landed, .inl (.inr ⟨i, mem⟩), newest x here key⟩
          · exact .inl ⟨still, origin⟩
        · have before := sound.first _ x is y (.inr ⟨i, mem⟩) (key.trans yKey.symm)
          exact .inr ⟨y, landed, .inl (.inr ⟨i, mem⟩), Nat.le_of_lt before⟩
      · obtain ⟨waits, origin⟩ | is := stored
        · obtain here | still := waits_cases (r := r) waits i
          · exact absurd key (none x here)
          · exact .inl ⟨still, origin⟩
        · exact .inr ⟨x, unchanged.trans is, .inr ⟨_, is⟩, Nat.le_refl _⟩
    obtain still | ⟨y, is, held, newer⟩ := found
    · exact .inr (.inr ⟨x, .inl still, same, later⟩)
    · by_cases content : r.content y = r.content e
      · exact .inr (.inr ⟨y, .inr is, content, Nat.le_trans later newer⟩)
      · obtain ⟨v, logged, wrote⟩ := sound.logged y held
        have yKey : r.keyOf y = r.keyOf e := (sound.land i).keyed _ y is
        have apart : r.number e ≠ r.number y := by
          intro numbers
          obtain ⟨w, is', wrote'⟩ := written
          rw [numbers, logged, Option.some_inj] at is'
          rw [← is', wrote, Option.some_inj] at wrote'
          exact content (congrArg r.content wrote')
        exact .inr (.inl ⟨r.number y, v, by omega, logged, y, wrote, yKey, content⟩)

end Landing

def Reading.erase (r : Reading E D K V O) (b : Buffer E K V) (v : V) : Buffer E K V :=
  { b with
    index := fun k => (b.index k).filter fun e => !r.erases v (r.content e)
    log := b.log ++ [v] }

theorem Sound.erase (sound : Sound r b) (silent : r.wrote v = none)
    (nothing : ∀ e, b.Waits e → r.erases v (r.content e) = false) : Sound r (r.erase b v) := by
  have stored : ∀ k e, (r.erase b v).index k = some e →
      b.index k = some e ∧ r.erases v (r.content e) = false := by
    intro k e is
    obtain ⟨is, kept⟩ := Option.filter_eq_some_iff.1 is
    exact ⟨is, by simpa using kept⟩
  -- what the entry erases is gone already when it is logged
  let c : Buffer E K V := { b with index := (r.erase b v).index }
  have held : ∀ e, c.Holds e → b.Holds e ∧ r.erases v (r.content e) = false := by
    rintro e (waits | ⟨k, is⟩)
    · exact ⟨.inl waits, nothing e waits⟩
    · exact ⟨.inr ⟨k, (stored k e is).1⟩, (stored k e is).2⟩
  have before : Sound r c := {
    numbered := sound.numbered
    logged := fun e holds => sound.logged e (held e holds).1
    live := fun e holds later => sound.live e (held e holds).1 later
    keyed := fun k e is => sound.keyed k e (stored k e is).1
    queue := sound.queue
    flights := sound.flights
    ahead := sound.ahead
    apart := sound.apart
    first := fun k e is => sound.first k e (stored k e is).1 }
  exact before.note silent fun e holds => (held e holds).2

theorem Covered.erase (covered : Covered r b e) (written : Written r b e) (v : V) : Covered r (r.erase b v) e := by
  obtain ⟨w, is, -⟩ := written
  have bound := (List.getElem?_eq_some_iff.1 is).1
  obtain erased | replaced | ⟨x, stored, same, later⟩ := covered
  · exact .inl (erased.note v)
  · exact .inr (.inl (replaced.note v))
  · cases gone : r.erases v (r.content e) with
    | true => exact .inl (Buffer.later_last b bound gone)
    | false =>
      refine .inr (.inr ⟨x, stored.imp id fun found => ?_, same, later⟩)
      exact Option.filter_eq_some_iff.2 ⟨found, by simp [same, gone]⟩

def Buffer.lose (b : Buffer E K V) : Buffer E K V := { b with queue := [], flights := fun _ => [] }

theorem Buffer.not_waits_lose (x : E) : ¬ b.lose.Waits x := by
  rintro (mem | ⟨i, mem⟩) <;> simp [lose] at mem

theorem Sound.lose (sound : Sound r b) : Sound r b.lose where
  numbered := sound.numbered
  logged e held := sound.logged e (.inr (held.resolve_left (Buffer.not_waits_lose e)))
  live e held := sound.live e (.inr (held.resolve_left (Buffer.not_waits_lose e)))
  keyed := sound.keyed
  queue := List.Pairwise.nil
  flights _ := List.Pairwise.nil
  ahead _ _ mem := by simp [Buffer.lose] at mem
  apart _ _ _ _ mem := by simp [Buffer.lose] at mem
  first _ _ _ x waits := absurd waits (Buffer.not_waits_lose x)

theorem Covered.lose (covered : Covered r b e)
    (safe : ∀ x, b.Waits x → r.origin x ≠ r.origin e) : Covered r b.lose e := by
  obtain erased | replaced | ⟨x, ⟨waits, origin⟩ | is, same⟩ := covered
  · exact .inl erased
  · exact .inr (.inl replaced)
  · exact absurd origin (safe x waits)
  · exact .inr (.inr ⟨x, .inr is, same⟩)

end
end MastopodFederation.Lib.WriteBehind
