import Mathlib.Algebra.Ring.Parity
import Mathlib.Data.Finset.Powerset
import Mathlib.Data.Finset.SymmDiff

/-!
# Digests that combine hashes by exclusive or

Two equal members cancel, so the digest of a list is that of the set of those members that are
listed an odd number of times. Where the hashes of a set are independent, the digest of a subset
determines the subset.
-/
namespace MastopodFederation.Lib.XorDigest

section Digest
variable {α : Type} [DecidableEq α] {w : Nat} (hash : α → BitVec w)

def digest (items : List α) : BitVec w := items.foldl (fun acc item => acc ^^^ hash item) 0#w

def digestOf (members : Finset α) : BitVec w := members.fold (· ^^^ ·) 0#w hash

def oddly (items : List α) : Finset α :=
  items.toFinset.filter fun item => Odd (items.count item)

def Independent (members : Finset α) : Prop :=
  ∀ some ⊆ members, ∀ others ⊆ members, digestOf hash some = digestOf hash others → some = others

instance (members : Finset α) : Decidable (Independent hash members) :=
  decidable_of_iff (∀ some ∈ members.powerset, ∀ others ∈ members.powerset,
    digestOf hash some = digestOf hash others → some = others) (by
      simp only [Finset.mem_powerset, Independent])

variable {hash} {items : List α} {item : α} {members : Finset α}

theorem mem_oddly : item ∈ oddly items ↔ Odd (items.count item) := by
  unfold oddly
  rw [Finset.mem_filter, List.mem_toFinset]
  constructor
  · exact And.right
  · intro odd
    have listed : 0 < items.count item := by
      obtain ⟨k, count⟩ := odd
      omega
    exact ⟨List.count_pos_iff.mp listed, odd⟩

theorem oddly_subset : oddly items ⊆ items.toFinset := Finset.filter_subset _ _

theorem oddly_eq_toFinset : oddly items = items.toFinset ↔ ∀ item ∈ items, Odd (items.count item) := by
  unfold oddly
  rw [Finset.filter_eq_self]
  simp only [List.mem_toFinset]

theorem oddly_append_singleton : oddly (items ++ [item]) = symmDiff (oddly items) {item} := by
  ext other
  simp only [mem_oddly, Finset.mem_symmDiff, Finset.mem_singleton, List.count_append]
  by_cases same : other = item
  · simp [same, Nat.odd_add_one]
  · have absent : List.count other [item] = 0 := by
      simp [List.count_eq_zero, same]
    simp [same, absent]

theorem digestOf_insert (absent : item ∉ members) :
    digestOf hash (insert item members) = hash item ^^^ digestOf hash members :=
  Finset.fold_insert absent

theorem digestOf_symmDiff : digestOf hash (symmDiff members {item}) =
    digestOf hash members ^^^ hash item := by
  by_cases here : item ∈ members
  · have gone : symmDiff members {item} = members.erase item := by
      ext other
      simp only [Finset.mem_symmDiff, Finset.mem_singleton, Finset.mem_erase]
      by_cases same : other = item <;> simp [same, here]
    have back : digestOf hash (insert item (members.erase item)) =
        hash item ^^^ digestOf hash (members.erase item) :=
      digestOf_insert (Finset.notMem_erase item members)
    rw [Finset.insert_erase here] at back
    rw [gone, back, BitVec.xor_comm (hash item), BitVec.xor_assoc, BitVec.xor_self, BitVec.xor_zero]
  · have added : symmDiff members {item} = insert item members := by
      ext other
      simp only [Finset.mem_symmDiff, Finset.mem_singleton, Finset.mem_insert]
      by_cases same : other = item <;> simp [same, here]
    rw [added, digestOf_insert here, BitVec.xor_comm]

theorem digest_eq_digestOf : digest hash items = digestOf hash (oddly items) := by
  induction items using List.reverseRecOn with
  | nil => rfl
  | append_singleton items item ih =>
    rw [oddly_append_singleton, digestOf_symmDiff, ← ih]
    simp [digest]

end Digest

section Hex
variable {n : Nat} {x y : BitVec (4 * n)}

def nibble (x : BitVec (4 * n)) (i : Nat) : Nat := x.toNat >>> (4 * i) % 16

def hex (x : BitVec (4 * n)) : String :=
  String.ofList ((List.range n).reverse.map fun i => Nat.digitChar (nibble x i))

theorem digitChar_injective : ∀ a b : Fin 16, Nat.digitChar a = Nat.digitChar b → a = b := by
  decide

theorem testBit_nibble (i j : Nat) (small : j < 4) :
    (nibble x i).testBit j = x.toNat.testBit (4 * i + j) := by
  have sixteen : 16 = 2 ^ 4 := rfl
  rw [nibble, sixteen, Nat.testBit_mod_two_pow, Nat.testBit_shiftRight]
  simp [small]

theorem eq_of_nibbles (same : ∀ i < n, nibble x i = nibble y i) : x = y := by
  apply BitVec.eq_of_getLsbD_eq
  intro bit inside
  have split : 4 * (bit / 4) + bit % 4 = bit := Nat.div_add_mod bit 4
  have agree := congrArg (Nat.testBit · (bit % 4)) (same (bit / 4) (by omega))
  simp only [testBit_nibble _ _ (Nat.mod_lt bit (by omega : 4 > 0)), split] at agree
  exact agree

theorem hex_injective : Function.Injective (hex (n := n)) := by
  intro x y same
  apply eq_of_nibbles
  intro i inside
  have digits := String.ofList_injective same
  rw [List.map_inj_left] at digits
  have digit := digits i (by simpa using inside)
  have small (z : BitVec (4 * n)) : nibble z i < 16 := Nat.mod_lt _ (by omega)
  have equal := digitChar_injective ⟨_, small x⟩ ⟨_, small y⟩ digit
  exact congrArg Fin.val equal

end Hex

end MastopodFederation.Lib.XorDigest
