import Apicast.Foundation.Json

/-!
# Decoded values in Lua

What a program finds when it looks fields of a decoded JSON value up. A null is a value of its own,
which is true and has no fields. Strings share the functions of the string library as their fields.
Looking up a field of any other value that is no table raises an error, as going through its items
does.
-/

namespace Foundation

inductive LuaValue (Number : Type*)
  | json (value : Json Number)
  /-- A function of the string library. -/
  | function

namespace LuaValue

variable {Number : Type*}

def typeName : LuaValue Number → String
  | json .null => "userdata"
  | json (.boolean _) => "boolean"
  | json (.number _) => "number"
  | json (.string _) => "string"
  | json (.array _) => "table"
  | json (.object _) => "table"
  | function => "function"

/-- Only `false` is not true. -/
def truthy : LuaValue Number → Bool
  | json (.boolean value) => value
  | _ => true

def Indexable : LuaValue Number → Prop
  | json (.string _) | json (.array _) | json (.object _) => True
  | _ => False

def IsTable : LuaValue Number → Prop
  | json (.array _) | json (.object _) => True
  | _ => False

instance : DecidablePred (@Indexable Number) := fun value =>
  match value with
  | json (.string _) | json (.array _) | json (.object _) => .isTrue trivial
  | json .null | json (.boolean _) | json (.number _) | function => .isFalse id

instance : DecidablePred (@IsTable Number) := fun value =>
  match value with
  | json (.array _) | json (.object _) => .isTrue trivial
  | json .null | json (.boolean _) | json (.number _) | json (.string _) | function => .isFalse id

def indexError (value : LuaValue Number) : String :=
  "attempt to index a " ++ value.typeName ++ " value"

def ipairsError (value : LuaValue Number) : String :=
  "bad argument #1 to 'ipairs' (table expected, got " ++ value.typeName ++ ")"

section Lookup

variable (stringFunctions : String → Bool)

/-- The field of a value, if there is one. -/
def fieldOf (key : String) : LuaValue Number → Option (LuaValue Number)
  | json (.string _) => if stringFunctions key then some function else none
  | json (.object fields) => ((Json.object fields).field key).map json
  | _ => none

/-- `value[key]` -/
def index (value : LuaValue Number) (key : String) : Except String (Option (LuaValue Number)) :=
  if value.Indexable then .ok (value.fieldOf stringFunctions key) else .error value.indexError

end Lookup

/-- The items at the integer keys of a table. -/
def itemsOf : LuaValue Number → List (Json Number)
  | json (.array items) => items
  | _ => []

/-- `ipairs` -/
def ipairs (value : LuaValue Number) : Except String (List (Json Number)) :=
  if value.IsTable then .ok value.itemsOf else .error value.ipairsError

/-- A lookup that finds nothing or `false`. -/
def truthyField (found : Option (LuaValue Number)) : Option (LuaValue Number) := found.filter truthy

variable {stringFunctions : String → Bool} {value : LuaValue Number} {key message : String}

theorem ipairs_of_isTable (table : value.IsTable) : value.ipairs = .ok value.itemsOf := if_pos table

theorem ipairs_of_not_isTable (other : ¬ value.IsTable) :
    value.ipairs = .error value.ipairsError := if_neg other

theorem truthyField_eq_some {found : Option (LuaValue Number)} :
    truthyField found = some value ↔ found = some value ∧ value.truthy = true :=
  Option.filter_eq_some_iff

theorem fieldOf_object {fields : List (String × Json Number)} :
    fieldOf stringFunctions key (json (.object fields)) =
      ((Json.object fields).field key).map json := rfl

/-- Decoded values are found in objects only. -/
theorem fieldOf_eq_json {found : Json Number} :
    value.fieldOf stringFunctions key = some (json found) ↔
      ∃ fields, value = json (.object fields) ∧ (Json.object fields).field key = some found := by
  constructor
  · intro present
    unfold fieldOf at present
    split at present
    · cases (Option.ite_none_right_eq_some.mp present).2
    · rename_i fields
      obtain ⟨own, listed, same⟩ := Option.map_eq_some_iff.mp present
      cases same
      exact ⟨fields, rfl, listed⟩
    · cases present
  · rintro ⟨fields, rfl, listed⟩
    rw [fieldOf_object, listed, Option.map_some]

theorem indexable_of_fieldOf {found : LuaValue Number}
    (present : value.fieldOf stringFunctions key = some found) : value.Indexable := by
  unfold fieldOf at present
  split at present
  · trivial
  · trivial
  · cases present

/-- Only arrays have items. -/
theorem mem_itemsOf {item : Json Number} :
    item ∈ value.itemsOf ↔ ∃ items, value = json (.array items) ∧ item ∈ items := by
  unfold itemsOf
  split
  · simp only [json.injEq, Json.array.injEq, exists_eq_left']
  · rename_i other
    refine iff_of_false List.not_mem_nil ?_
    rintro ⟨items, same, _⟩
    exact other items same

end LuaValue

end Foundation
