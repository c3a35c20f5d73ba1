import Mathlib.Data.List.Basic

/-!
# JSON values

As a dynamically typed program sees them: any field of an object may be missing or
hold a value of any type. Numbers are of any type.
-/

namespace Foundation

inductive Json (Number : Type*)
  | null
  | boolean (value : Bool)
  | number (value : Number)
  | string (value : String)
  | array (items : List (Json Number))
  | object (fields : List (String × Json Number))

namespace Json

variable {Number : Type*}

/-- The value of a field; the last one counts when an object repeats a name. -/
def field (name : String) : Json Number → Option (Json Number)
  | object fields => (fields.reverse.find? fun field => decide (field.1 = name)).map (·.2)
  | _ => none

def isTrue : Json Number → Bool
  | boolean value => value
  | _ => false

def isFalse : Json Number → Bool
  | boolean value => !value
  | _ => false

/-- Whether a value is this text. -/
def isString (text : String) : Json Number → Bool
  | string value => value == text
  | _ => false

theorem isString_iff {text : String} {value : Json Number} :
    value.isString text = true ↔ value = string text := by
  cases value <;> simp [isString]

/-- Arrays and objects are both tables. -/
def isTable : Json Number → Bool
  | array _ => true
  | object _ => true
  | _ => false

/-- The number a value can be read as: itself, or what its text says. -/
def toNumber (parse : String → Option Number) : Json Number → Option Number
  | number value => some value
  | string value => parse value
  | _ => none

end Json

end Foundation
