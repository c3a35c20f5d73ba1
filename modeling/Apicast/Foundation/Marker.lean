import Apicast.Foundation.DelimitedString

/-!
# Strings joined by a marker

A marker is a delimiter followed by a name that does not contain the delimiter. Two
occurrences of markers with the same delimiter cannot overlap, so a field without a
marker in it can be read back from the front of a string.
-/

namespace Foundation

structure Marker where
  delimiter : Char
  name : String
  fresh : Delimited.Free delimiter name

namespace Marker

/-- A field, the marker, and the rest. -/
def join (marker : Marker) (field rest : String) : String :=
  Delimited.join marker.delimiter field (marker.name ++ rest)

/-- The marker as it is written. -/
def text (marker : Marker) : String := String.singleton marker.delimiter ++ marker.name

theorem toList_text (marker : Marker) :
    marker.text.toList = marker.delimiter :: marker.name.toList := by
  unfold text
  rw [String.toList_append, String.toList_singleton, List.singleton_append]

/-- The marker does not occur in the field. -/
def Free (marker : Marker) (field : String) : Prop :=
  ¬ (marker.delimiter :: marker.name.toList) <:+: field.toList

instance (marker : Marker) (field : String) : Decidable (marker.Free field) :=
  inferInstanceAs (Decidable (¬ (marker.delimiter :: marker.name.toList) <:+: field.toList))

variable {marker another : Marker} {field other rest remaining : String}

/-- A joined string contains its marker. -/
theorem not_free_join : ¬ marker.Free (marker.join field rest) := by
  intro free
  apply free
  unfold join
  rw [Delimited.toList_join, String.toList_append]
  exact ⟨field.toList, rest.toList, by simp only [List.append_assoc, List.cons_append]⟩

private theorem list_field_eq {Letter : Type*} {delimiter : Letter}
    {name field others rest remaining : List Letter} (fresh : delimiter ∉ name)
    (absent : ¬ (delimiter :: name) <:+: field ++ others) (nonempty : others ≠ [])
    (equal : delimiter :: name ++ rest = others ++ delimiter :: remaining) : False := by
  cases others with
  | nil => exact nonempty rfl
  | cons letter others =>
      obtain ⟨rfl, tails⟩ := List.cons.inj equal
      rcases List.append_eq_append_iff.mp tails with ⟨more, inside, _⟩ | ⟨more, beyond, cut⟩
      · -- the whole marker lies in the field
        apply absent
        rw [inside]
        exact ⟨field, more, by simp only [List.append_assoc, List.cons_append]⟩
      · cases more with
        | nil =>
            apply absent
            rw [List.append_nil] at beyond
            rw [beyond]
            exact (List.suffix_append field _).isInfix
        | cons first more =>
            -- the next marker begins inside the name of this one
            obtain ⟨rfl, _⟩ := List.cons.inj cut
            apply fresh
            rw [beyond]
            exact List.mem_append_right _ List.mem_cons_self

/-- The fields before the first markers of two equal strings are equal. -/
theorem join_inj (same : marker.delimiter = another.delimiter) (free : another.Free field)
    (otherFree : marker.Free other)
    (equal : marker.join field rest = another.join other remaining) :
    field = other ∧ marker.name ++ rest = another.name ++ remaining := by
  have letters := congrArg String.toList equal
  unfold join at letters
  rw [Delimited.toList_join, Delimited.toList_join, String.toList_append, String.toList_append,
    ← same] at letters
  unfold Free at free otherFree
  rw [← same] at free
  have fresh : marker.delimiter ∉ another.name.toList := by
    rw [same]
    exact another.fresh
  rcases List.append_eq_append_iff.mp letters with ⟨more, longer, tails⟩ | ⟨more, longer, tails⟩
  · cases more with
    | nil =>
        rw [List.append_nil] at longer
        refine ⟨String.toList_inj.mp longer.symm, String.toList_inj.mp ?_⟩
        rw [String.toList_append, String.toList_append]
        exact (List.cons.inj tails).2
    | cons letter more =>
        rw [longer] at otherFree
        exact (list_field_eq marker.fresh otherFree (List.cons_ne_nil _ _) tails).elim
  · cases more with
    | nil =>
        rw [List.append_nil] at longer
        refine ⟨String.toList_inj.mp longer, String.toList_inj.mp ?_⟩
        rw [String.toList_append, String.toList_append]
        exact (List.cons.inj tails).2.symm
    | cons letter more =>
        rw [longer] at free
        exact (list_field_eq fresh free (List.cons_ne_nil _ _) tails).elim

/-- The rest after one marker. -/
theorem join_self_inj (free : marker.Free field) (otherFree : marker.Free other)
    (equal : marker.join field rest = marker.join other remaining) :
    field = other ∧ rest = remaining := by
  obtain ⟨fields, rests⟩ := join_inj rfl free otherFree equal
  refine ⟨fields, String.toList_inj.mp ?_⟩
  have letters := congrArg String.toList rests
  rw [String.toList_append, String.toList_append] at letters
  exact List.append_cancel_left letters

end Marker

end Foundation
