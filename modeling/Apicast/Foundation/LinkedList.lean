import Mathlib.Logic.Function.Basic

/-!
# Tables linked to fallbacks

A linked list looks a key up in its own table and then in what it is linked to. Only its own table
is written. A list that is linked to one more table shares the table of the first one, so what is
written to one of them is seen through the other.
-/

namespace Foundation

structure LinkedList (Key Value : Type*) where
  current : Key → Option Value
  next : Key → Option Value

namespace LinkedList

variable {Key Value : Type*}

/-- The table without entries. -/
def emptyTable : Key → Option Value := fun _ => none

/-- A table in front of others. -/
def link (table next : Key → Option Value) : Key → Option Value := fun key =>
  (table key).or (next key)

/-- Lookup of a key. -/
def get (list : LinkedList Key Value) (key : Key) : Option Value :=
  (list.current key).or (list.next key)

/-- Write of a key. -/
def set [DecidableEq Key] (list : LinkedList Key Value) (key : Key) (value : Option Value) :
    LinkedList Key Value :=
  { list with current := Function.update list.current key value }

/-- The list, linked to one more table behind the others. -/
def merge (list : LinkedList Key Value) (table : Key → Option Value) : LinkedList Key Value :=
  { list with next := link list.next table }

variable {list : LinkedList Key Value} {table : Key → Option Value} {key other : Key}
  {value : Value}

theorem link_assoc (first second third : Key → Option Value) :
    link (link first second) third = link first (link second third) := by
  funext key
  exact Option.or_assoc

/-- A merged list finds what the list finds first. -/
theorem get_merge (list : LinkedList Key Value) (table : Key → Option Value) (key : Key) :
    (list.merge table).get key = (list.get key).or (table key) :=
  Option.or_assoc.symm

theorem get_merge_of_get (found : list.get key = some value) :
    (list.merge table).get key = some value := by
  rw [get_merge, found, Option.some_or]

variable [DecidableEq Key]

theorem current_set_self {written : Option Value} : (list.set key written).current key = written :=
  Function.update_self ..

@[simp]
theorem get_set_self : (list.set key (some value)).get key = some value := by
  unfold get
  rw [current_set_self, Option.some_or]

theorem get_set_of_ne {written : Option Value} (different : other ≠ key) :
    (list.set key written).get other = list.get other := by
  change (Function.update list.current key written other).or _ = _
  rw [Function.update_of_ne different]
  rfl

end LinkedList

end Foundation
