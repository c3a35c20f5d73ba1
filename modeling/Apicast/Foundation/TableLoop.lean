import Mathlib.Data.List.Basic

/-!
# Loops that build from a table and change it

A loop goes through the items of a table and builds something from each of them. It stops at
the first item that fails, and what it wrote into the items stays there.
-/

namespace Foundation

namespace TableLoop

variable {Item Error Built Result : Type*}

/-- The table after the loop, and what was built. -/
def forEach (build : Item → Item × Except Error Built) :
    List Item → List Item × Except Error (List Built)
  | [] => ([], .ok [])
  | item :: rest =>
      match build item with
      | (written, .error error) => (written :: rest, .error error)
      | (written, .ok built) =>
          let (items, results) := forEach build rest
          (written :: items, results.map (built :: ·))

variable {build : Item → Item × Except Error Built}

theorem forEach_cons_error {item written : Item} {error : Error} (rest : List Item)
    (built : build item = (written, .error error)) :
    forEach build (item :: rest) = (written :: rest, .error error) := by
  rw [forEach, built]

theorem forEach_cons_ok {item written : Item} {result : Built} (rest : List Item)
    (built : build item = (written, .ok result)) :
    forEach build (item :: rest) =
      (written :: (forEach build rest).1, (forEach build rest).2.map (result :: ·)) := by
  rw [forEach, built]

/-- Results that are alike go on alike, when what follows only depends on what they share. -/
theorem bind_eq_bind {Next Shared : Type*} {first second : Except Error Built}
    (convert : Built → Shared) (alike : first.map convert = second.map convert)
    {next : Built → Except Error Next} {goOn : Built → Except Error Next}
    (shared : ∀ value other, convert value = convert other → next value = goOn other) :
    first.bind next = second.bind goOn := by
  cases first with
  | error error =>
      cases second with
      | error other => exact congrArg Except.error (Except.error.inj alike)
      | ok value => cases alike
  | ok value =>
      cases second with
      | error other => cases alike
      | ok other => exact shared value other (Except.ok.inj alike)

theorem map_eq_map {Next Shared : Type*} {first second : Except Error Built}
    (convert : Built → Shared) (alike : first.map convert = second.map convert)
    {next : Built → Next} (shared : ∀ value other, convert value = convert other →
      next value = next other) : first.map next = second.map next := by
  cases first with
  | error error =>
      cases second with
      | error other => exact congrArg Except.error (Except.error.inj alike)
      | ok value => cases alike
  | ok value =>
      cases second with
      | error other => cases alike
      | ok other => exact congrArg Except.ok (shared value other (Except.ok.inj alike))

theorem map_map {Next : Type*} (result : Except Error Built) (convert : Built → Result)
    (next : Result → Next) : (result.map convert).map next = result.map fun value =>
      next (convert value) := by
  cases result <;> rfl

theorem map_bind {Next : Type*} (result : Except Error Built) (next : Built → Except Error Next)
    (convert : Next → Result) :
    (result.bind next).map convert = result.bind fun value => (next value).map convert := by
  cases result <;> rfl

theorem map_id (result : Except Error Built) : result.map id = result := by
  cases result <;> rfl

/-- What the loop keeps of every item holds of all items afterwards. -/
theorem forall_mem_forEach {holds : Item → Prop} (kept : ∀ item, holds item → holds (build item).1)
    {items : List Item} (all : ∀ item ∈ items, holds item) :
    ∀ item ∈ (forEach build items).1, holds item := by
  induction items with
  | nil => exact all
  | cons item rest ih =>
      obtain ⟨first, others⟩ := List.forall_mem_cons.mp all
      have written := kept item first
      cases built : build item with
      | mk rewritten result =>
          rw [built] at written
          cases result with
          | error error =>
              rw [forEach_cons_error rest built]
              exact List.forall_mem_cons.mpr ⟨written, others⟩
          | ok value =>
              rw [forEach_cons_ok rest built]
              exact List.forall_mem_cons.mpr ⟨written, ih others⟩

private theorem map_map_cons (convert : Built → Result) (value : Built)
    (results : Except Error (List Built)) :
    (results.map (value :: ·)).map (List.map convert) =
      (results.map (List.map convert)).map (convert value :: ·) := by
  cases results <;> rfl

/-- A loop over a table that it went through before builds the same, as far as every item does. -/
theorem forEach_forEach {holds : Item → Prop} (convert : Built → Result)
    (same : ∀ item, holds item →
      (build (build item).1).2.map convert = (build item).2.map convert)
    {items : List Item} (all : ∀ item ∈ items, holds item) :
    (forEach build (forEach build items).1).2.map (List.map convert) =
      (forEach build items).2.map (List.map convert) := by
  induction items with
  | nil => rfl
  | cons item rest ih =>
      obtain ⟨first, others⟩ := List.forall_mem_cons.mp all
      have again := same item first
      cases built : build item with
      | mk written result =>
          rw [built] at again
          dsimp only at again
          cases rebuilt : build written with
          | mk rewritten next =>
              rw [rebuilt] at again
              dsimp only at again
              cases result with
              | error error =>
                  cases next with
                  | error other =>
                      rw [forEach_cons_error rest built, forEach_cons_error rest rebuilt]
                      exact congrArg Except.error (Except.error.inj again)
                  | ok value => cases again
              | ok value =>
                  cases next with
                  | error other => cases again
                  | ok other =>
                      have converted : convert other = convert value := Except.ok.inj again
                      have remaining := ih others
                      rw [forEach_cons_ok rest built, forEach_cons_ok _ rebuilt]
                      dsimp only
                      rw [map_map_cons, map_map_cons, remaining, converted]

theorem eq_error_of_map {result : Except Error Built} {convert : Built → Result} {error : Error}
    (failed : result.map convert = .error error) : result = .error error := by
  cases result with
  | error other => exact congrArg Except.error (Except.error.inj failed)
  | ok built => cases failed

/-- A loop that does not fail writes to every item, and what it builds can be read off the
items. -/
theorem forEach_ok {View : Type*} {items : List Item} {results : List Built}
    (completed : (forEach build items).2 = .ok results) (view : Built → View) (look : Item → View)
    (read : ∀ item result, (build item).2 = .ok result → view result = look (build item).1) :
    (forEach build items).1 = items.map (fun item => (build item).1) ∧
      results.map view = (forEach build items).1.map look := by
  induction items generalizing results with
  | nil =>
      cases completed
      exact ⟨rfl, rfl⟩
  | cons item rest ih =>
      cases built : build item with
      | mk written result =>
          cases result with
          | error error =>
              rw [forEach_cons_error rest built] at completed
              cases completed
          | ok value =>
              rw [forEach_cons_ok rest built] at completed ⊢
              cases remaining : (forEach build rest).2 with
              | error error =>
                  rw [remaining] at completed
                  cases completed
              | ok values =>
                  obtain ⟨table, views⟩ := ih remaining
                  have viewed := read item value (by rw [built])
                  rw [remaining] at completed
                  cases completed
                  rw [built] at viewed
                  rw [List.map_cons, List.map_cons, List.map_cons, built, viewed, views]
                  exact ⟨congrArg _ table, rfl⟩

/-- What is built from the items is built by the rounds of the loop. -/
theorem forEach_ok_of_mem {items : List Item} {results : List Built}
    (completed : (forEach build items).2 = .ok results) :
    ∀ item ∈ items, ∃ result, (build item).2 = .ok result := by
  induction items generalizing results with
  | nil => exact List.forall_mem_nil _
  | cons item rest ih =>
      cases built : build item with
      | mk written result =>
          cases result with
          | error error =>
              rw [forEach_cons_error rest built] at completed
              cases completed
          | ok value =>
              rw [forEach_cons_ok rest built] at completed
              cases remaining : (forEach build rest).2 with
              | error error =>
                  rw [remaining] at completed
                  cases completed
              | ok values =>
                  refine List.forall_mem_cons.mpr ⟨⟨value, ?_⟩, ih remaining⟩
                  rw [built]

/-- A loop completes exactly when none of its rounds fails. -/
theorem forEach_ok_iff {items : List Item} :
    (∃ results, (forEach build items).2 = .ok results) ↔
      ∀ item ∈ items, ∃ result, (build item).2 = .ok result := by
  refine ⟨fun completes => completes.elim fun _ completed => forEach_ok_of_mem completed, ?_⟩
  intro rounds
  induction items with
  | nil => exact ⟨[], rfl⟩
  | cons item rest ih =>
      obtain ⟨⟨value, made⟩, others⟩ := List.forall_mem_cons.mp rounds
      obtain ⟨values, completed⟩ := ih others
      refine ⟨value :: values, ?_⟩
      rw [forEach_cons_ok rest (Prod.ext rfl made), completed]
      rfl

end TableLoop

end Foundation
