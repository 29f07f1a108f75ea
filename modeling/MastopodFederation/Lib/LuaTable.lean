import Mathlib.Tactic.TypeStar

/-!
# JSON values through Lua tables

Redis decodes JSON into Lua values and encodes them back: arrays and objects both become tables,
an empty table is encoded as an object, and a number comes back as what its printed form denotes.
A value survives the way exactly when it has no empty array and no number that prints
inexactly, with objects compared up to the order of their keys.
-/
namespace MastopodFederation.Lib.LuaTable

inductive Json where
  | null
  | bool (value : Bool)
  | num (value : Rat)
  | str (value : String)
  | arr (items : List Json)
  | obj (entries : List (String × Json))

inductive Lua where
  | null
  | bool (value : Bool)
  | num (value : Rat)
  | str (value : String)
  | table (items : List Lua) (entries : List (String × Lua))

mutual
def Json.toLua : Json → Lua
  | .null => .null
  | .bool value => .bool value
  | .num value => .num value
  | .str value => .str value
  | .arr items => .table (toLuaItems items) []
  | .obj entries => .table [] (toLuaEntries entries)

def toLuaItems : List Json → List Lua
  | [] => []
  | item :: rest => item.toLua :: toLuaItems rest

def toLuaEntries : List (String × Json) → List (String × Lua)
  | [] => []
  | (key, value) :: rest => (key, value.toLua) :: toLuaEntries rest
end

section
variable (reprint : Rat → Rat)

mutual
def Lua.toJson : Lua → Json
  | .null => .null
  | .bool value => .bool value
  | .num value => .num (reprint value)
  | .str value => .str value
  | .table [] entries => .obj (toJsonEntries entries)
  | .table (item :: rest) _ => .arr (toJsonItems (item :: rest))

def toJsonItems : List Lua → List Json
  | [] => []
  | item :: rest => item.toJson :: toJsonItems rest

def toJsonEntries : List (String × Lua) → List (String × Json)
  | [] => []
  | (key, value) :: rest => (key, value.toJson) :: toJsonEntries rest
end

def recode (value : Json) : Json := value.toLua.toJson reprint

theorem toJsonItems_toLuaItems (items : List Json) :
    toJsonItems reprint (toLuaItems items) = items.map (recode reprint) := by
  induction items with
  | nil => simp [toLuaItems, toJsonItems]
  | cons item rest ih => simp [toLuaItems, toJsonItems, ih, recode]

theorem toJsonEntries_toLuaEntries (entries : List (String × Json)) :
    toJsonEntries reprint (toLuaEntries entries) =
      entries.map fun entry => (entry.1, recode reprint entry.2) := by
  induction entries with
  | nil => simp [toLuaEntries, toJsonEntries]
  | cons entry rest ih => simp [toLuaEntries, toJsonEntries, ih, recode]

@[simp] theorem recode_obj (entries : List (String × Json)) :
    recode reprint (.obj entries) =
      .obj (entries.map fun entry => (entry.1, recode reprint entry.2)) := by
  rw [← toJsonEntries_toLuaEntries, recode, Json.toLua, Lua.toJson]

@[simp] theorem recode_arr_nil : recode reprint (.arr []) = .obj [] := by
  simp [recode, Json.toLua, toLuaItems, Lua.toJson, toJsonEntries]

@[simp] theorem recode_arr_cons (item : Json) (rest : List Json) :
    recode reprint (.arr (item :: rest)) = .arr ((item :: rest).map (recode reprint)) := by
  rw [← toJsonItems_toLuaItems, recode, Json.toLua, toLuaItems, Lua.toJson]

end

inductive Same : Json → Json → Prop where
  | null : Same .null .null
  | bool (value : Bool) : Same (.bool value) (.bool value)
  | num (value : Rat) : Same (.num value) (.num value)
  | str (value : String) : Same (.str value) (.str value)
  | arr {xs ys : List Json} (length : xs.length = ys.length)
      (items : ∀ (i : Nat) (x y : Json), xs[i]? = some x → ys[i]? = some y → Same x y) :
      Same (.arr xs) (.arr ys)
  | obj {xs ys : List (String × Json)}
      (keys : ∀ k, (xs.lookup k).isSome = (ys.lookup k).isSome)
      (values : ∀ (k : String) (x y : Json), xs.lookup k = some x → ys.lookup k = some y →
        Same x y) :
      Same (.obj xs) (.obj ys)

theorem Same.symm {a b : Json} (h : Same a b) : Same b a := by
  induction h with
  | null => exact .null
  | bool value => exact .bool value
  | num value => exact .num value
  | str value => exact .str value
  | arr length _ ih => exact .arr length.symm fun i x y hx hy => ih i y x hy hx
  | obj keys _ ih => exact .obj (fun k => (keys k).symm) fun k x y hx hy => ih k y x hy hx

theorem Same.trans {a b c : Json} (first : Same a b) (second : Same b c) : Same a c := by
  induction first generalizing c with
  | null => exact second
  | bool value => exact second
  | num value => exact second
  | str value => exact second
  | @arr xs ys length _ ih =>
    cases second with
    | @arr _ zs length' items =>
      refine .arr (length.trans length') fun i x z hx hz => ?_
      obtain ⟨bound, _⟩ := List.getElem?_eq_some_iff.mp hx
      have hy : ys[i]? = some ys[i] := List.getElem?_eq_getElem (length ▸ bound)
      exact ih i x _ hx hy (items i _ z hy hz)
  | @obj xs ys keys _ ih =>
    cases second with
    | @obj _ zs keys' values =>
      refine .obj (fun k => (keys k).trans (keys' k)) fun k x z hx hz => ?_
      have present : (ys.lookup k).isSome = true := by rw [← keys k, hx]; rfl
      obtain ⟨y, hy⟩ := Option.isSome_iff_exists.mp present
      exact ih k x y hx hy (values k y z hy hz)

theorem lookup_map_snd {α β : Type} (f : α → β) (entries : List (String × α)) (k : String) :
    (entries.map fun entry => (entry.1, f entry.2)).lookup k = (entries.lookup k).map f := by
  induction entries with
  | nil => rfl
  | cons entry rest ih =>
    obtain ⟨key, value⟩ := entry
    cases same : k == key <;> simp [List.lookup_cons, same, ih]

theorem mem_of_lookup {α : Type} {entries : List (String × α)} {k : String} {v : α}
    (h : entries.lookup k = some v) : (k, v) ∈ entries := by
  induction entries with
  | nil => cases h
  | cons entry rest ih =>
    rw [List.lookup_cons] at h
    split at h
    next same =>
      cases h
      rw [beq_iff_eq] at same
      simp [same]
    next => exact List.mem_cons_of_mem _ (ih h)

inductive Survives (reprint : Rat → Rat) : Json → Prop where
  | null : Survives reprint .null
  | bool (value : Bool) : Survives reprint (.bool value)
  | str (value : String) : Survives reprint (.str value)
  | num {value : Rat} (exact' : reprint value = value) : Survives reprint (.num value)
  | arr {items : List Json} (nonempty : items ≠ []) (each : ∀ x ∈ items, Survives reprint x) :
      Survives reprint (.arr items)
  | obj {entries : List (String × Json)}
      (each : ∀ (k : String) (x : Json), entries.lookup k = some x → Survives reprint x) :
      Survives reprint (.obj entries)

variable {reprint : Rat → Rat}

theorem same_num_iff {a b : Rat} : Same (.num a) (.num b) ↔ a = b := by
  constructor
  · intro h
    cases h
    rfl
  · rintro rfl
    exact .num a

theorem same_arr_iff {xs ys : List Json} :
    Same (.arr xs) (.arr ys) ↔ xs.length = ys.length ∧
      ∀ (i : Nat) (x y : Json), xs[i]? = some x → ys[i]? = some y → Same x y := by
  constructor
  · intro h
    cases h with
    | arr length items => exact ⟨length, items⟩
  · exact fun h => .arr h.1 h.2

theorem same_recode_iff (value : Json) :
    Same (recode reprint value) value ↔ Survives reprint value := by
  match value with
  | .null => exact ⟨fun _ => .null, fun _ => by simpa [recode, Json.toLua, Lua.toJson] using .null⟩
  | .bool b =>
    exact ⟨fun _ => .bool b, fun _ => by simpa [recode, Json.toLua, Lua.toJson] using .bool b⟩
  | .str s =>
    exact ⟨fun _ => .str s, fun _ => by simpa [recode, Json.toLua, Lua.toJson] using .str s⟩
  | .num n =>
    rw [recode, Json.toLua, Lua.toJson, same_num_iff]
    constructor
    · exact .num
    · intro h
      cases h with
      | num exact' => exact exact'
  | .arr [] =>
    rw [recode_arr_nil]
    constructor
    · nofun
    · intro h
      cases h with
      | arr nonempty _ => exact absurd rfl nonempty
  | .arr (item :: rest) =>
    have each : ∀ x ∈ item :: rest, (Same (recode reprint x) x ↔ Survives reprint x) :=
      fun x mem => same_recode_iff x
    rw [recode_arr_cons, same_arr_iff]
    constructor
    · rintro ⟨_, items⟩
      refine .arr (by simp) fun x mem => ?_
      obtain ⟨i, bound, at_⟩ := List.getElem_of_mem mem
      have here : (item :: rest)[i]? = some x := List.getElem?_eq_some_iff.mpr ⟨bound, at_⟩
      exact (each x mem).mp (items i _ x (by rw [List.getElem?_map, here]; rfl) here)
    · intro h
      cases h with
      | arr _ survive =>
        refine ⟨by simp, fun i x y hx hy => ?_⟩
        rw [List.getElem?_map, hy] at hx
        cases hx
        have mem := List.mem_of_getElem? hy
        exact (each y mem).mpr (survive y mem)
  | .obj entries =>
    have each : ∀ k x, entries.lookup k = some x → (Same (recode reprint x) x ↔ Survives reprint x) :=
      fun k x found => same_recode_iff x
    rw [recode_obj]
    constructor
    · intro h
      cases h with
      | obj _ values =>
        exact .obj fun k x found =>
          (each k x found).mp (values k _ x (by rw [lookup_map_snd, found]; rfl) found)
    · intro h
      cases h with
      | obj survive =>
        refine .obj (fun k => by rw [lookup_map_snd, Option.isSome_map]) fun k x y hx hy => ?_
        rw [lookup_map_snd, hy] at hx
        cases hx
        exact (each k y hy).mpr (survive k y hy)
termination_by sizeOf value
decreasing_by
  · have := List.sizeOf_lt_of_mem mem
    simp only [Json.arr.sizeOf_spec]
    omega
  · have := List.sizeOf_lt_of_mem (mem_of_lookup found)
    simp only [Json.obj.sizeOf_spec, Prod.mk.sizeOf_spec] at this ⊢
    omega

end MastopodFederation.Lib.LuaTable
