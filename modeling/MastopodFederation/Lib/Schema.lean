import MastopodFederation.Lib.LuaTable
import Mathlib.Data.List.Infix

/-!
# Schemas of JSON values

A schema reads a value that may be absent and gives what the checked value is, or
nothing where the check fails. An object schema reads the fields it knows and drops
every other field.
-/
namespace MastopodFederation.Lib.Schema
open LuaTable

abbrev SchemaOf (α : Type) := Option Json → Option α

abbrev Fields := String → Option Json

section
variable {α : Type}

def string : SchemaOf String
  | some (.str text) => some text
  | _ => none

def anything : SchemaOf Json := id

def refine (schema : SchemaOf α) (check : α → Bool) : SchemaOf α := fun value =>
  (schema value).filter check

def startsWith (start : String) : SchemaOf String :=
  refine string fun text => start.toList.isPrefixOf text.toList

def nonempty : SchemaOf String := refine string fun text => text ≠ ""

def literal (expected : String) : SchemaOf String := refine string fun text => text = expected

def enumeration (choices : List (String × α)) : SchemaOf α := fun value =>
  (string value).bind fun text => choices.lookup text

def optional (schema : SchemaOf α) : SchemaOf (Option α)
  | none => some none
  | some value => (schema (some value)).map some

def nullish (schema : SchemaOf α) : SchemaOf (Option α)
  | none => some none
  | some .null => some none
  | some value => (schema (some value)).map some

def array (schema : SchemaOf α) : SchemaOf (List α)
  | some (.arr items) => items.mapM fun item => schema (some item)
  | _ => none

def object (fields : Fields → Option α) : SchemaOf α
  | some (.obj entries) => fields fun key => entries.lookup key
  | _ => none

@[simp] theorem string_str (text : String) : string (some (.str text)) = some text := rfl

@[simp] theorem optional_none (schema : SchemaOf α) : optional schema none = some none := rfl

@[simp] theorem optional_some (schema : SchemaOf α) (value : Json) :
    optional schema (some value) = (schema (some value)).map some := rfl

@[simp] theorem object_obj (fields : Fields → Option α) (entries : List (String × Json)) :
    object fields (some (.obj entries)) = fields (fun key => entries.lookup key) := rfl

def present (fields : List (String × Option Json)) : List (String × Json) :=
  fields.filterMap fun field => field.2.map fun value => (field.1, value)

@[simp] theorem lookup_present_nil (key : String) : (present []).lookup key = none := rfl

@[simp] theorem lookup_present_cons (key name : String) (value : Option Json)
    (rest : List (String × Option Json)) :
    (present ((name, value) :: rest)).lookup key =
      if key = name then value.or ((present rest).lookup key) else (present rest).lookup key := by
  cases value with
  | none => simp [present]
  | some value =>
    by_cases same : key = name
    · simp [present, same]
    · have : (key == name) = false := by simpa using same
      simp [present, List.lookup_cons, this, same]

variable {value : Option Json} {text : String}

theorem string_eq_some : string value = some text ↔ value = some (.str text) := by
  unfold string
  split <;> simp_all

theorem refine_eq_some {schema : SchemaOf α} {check : α → Bool} {a : α} :
    refine schema check value = some a ↔ schema value = some a ∧ check a = true := by
  simp [refine, Option.filter_eq_some_iff]

theorem startsWith_eq_some {start : String} : startsWith start value = some text ↔
      value = some (.str text) ∧ start.toList.isPrefixOf text.toList = true := by
  rw [startsWith, refine_eq_some, string_eq_some]

theorem optional_refine_str (check : String → Bool) (text : Option String) :
    optional (refine string check) (text.map .str) =
      if text.all check then some text else none := by
  cases text with
  | none => rfl
  | some text => by_cases passed : check text = true <;> simp [refine, Option.filter, passed]

@[simp] theorem optional_string_str (text : Option String) :
    optional string (text.map .str) = some text := by
  cases text <;> rfl

theorem literal_eq_some {expected : String} :
    literal expected value = some text ↔ value = some (.str expected) ∧ text = expected := by
  simp only [literal, refine_eq_some, string_eq_some, decide_eq_true_eq]
  constructor
  · rintro ⟨rfl, rfl⟩
    exact ⟨rfl, rfl⟩
  · rintro ⟨rfl, rfl⟩
    exact ⟨rfl, rfl⟩

end

end MastopodFederation.Lib.Schema
