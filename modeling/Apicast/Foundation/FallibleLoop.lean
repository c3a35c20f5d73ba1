import Mathlib.Data.List.Basic

/-!
# Loops of tests that may fail

A loop that ends at the first item which does not pass its test. Either all items pass, or the items
before the last one did.
-/

namespace Foundation.FallibleLoop

universe v

variable {Item Error : Type*} {test : Item → Except Error Bool} {items : List Item} {error : Error}

theorem allM_cons_true {item : Item} (passes : test item = .ok true) (rest : List Item) :
    (item :: rest).allM test = rest.allM test := by
  simp only [List.allM, passes]
  rfl

theorem allM_cons_false {item : Item} (denied : test item = .ok false) (rest : List Item) :
    (item :: rest).allM test = .ok false := by
  simp only [List.allM, denied]
  rfl

theorem allM_cons_error {item : Item} (failed : test item = .error error) (rest : List Item) :
    (item :: rest).allM test = .error error := by
  simp only [List.allM, failed]
  rfl

theorem allM_eq_true : items.allM test = .ok true ↔ ∀ item ∈ items, test item = .ok true := by
  induction items with
  | nil => exact iff_of_true rfl (List.forall_mem_nil _)
  | cons item rest ih =>
      rw [List.forall_mem_cons]
      cases result : test item with
      | error error => simp only [allM_cons_error result, reduceCtorEq, false_and]
      | ok passes =>
          cases passes with
          | true => simp only [allM_cons_true result, ih, true_and]
          | false => simp only [allM_cons_false result, Except.ok.injEq, Bool.false_eq_true,
              false_and]

/-- An item after others is the first one, or it is behind it. -/
theorem exists_split_cons {passes found : Item → Prop} {item : Item} {rest : List Item} :
    (∃ before last after, item :: rest = before ++ last :: after ∧
      (∀ other ∈ before, passes other) ∧ found last) ↔
      found item ∨ passes item ∧ ∃ before last after, rest = before ++ last :: after ∧
        (∀ other ∈ before, passes other) ∧ found last := by
  constructor
  · rintro ⟨before, last, after, split, passed, own⟩
    cases before with
    | nil =>
        obtain ⟨rfl, rfl⟩ := List.cons.inj split
        exact .inl own
    | cons first before =>
        obtain ⟨rfl, rfl⟩ := List.cons.inj split
        obtain ⟨first, others⟩ := List.forall_mem_cons.mp passed
        exact .inr ⟨first, before, last, after, rfl, others, own⟩
  · rintro (own | ⟨first, before, last, after, rfl, passed, own⟩)
    · exact ⟨[], item, rest, rfl, List.forall_mem_nil _, own⟩
    · exact ⟨item :: before, last, after, rfl, List.forall_mem_cons.mpr ⟨first, passed⟩, own⟩

/-- A loop fails at an item after others that passed. -/
theorem allM_eq_error :
    items.allM test = .error error ↔ ∃ passed item rest, items = passed ++ item :: rest ∧
      (∀ other ∈ passed, test other = .ok true) ∧ test item = .error error := by
  induction items with
  | nil => simp [List.allM, pure, Except.pure]
  | cons item rest ih =>
      rw [exists_split_cons, ← ih]
      cases result : test item with
      | error failure => simp only [allM_cons_error result, reduceCtorEq, false_and, or_false]
      | ok passes =>
          cases passes with
          | true => simp only [allM_cons_true result, reduceCtorEq, true_and, false_or]
          | false => simp only [allM_cons_false result, reduceCtorEq, Except.ok.injEq,
              Bool.false_eq_true, false_and, or_false]

section Progress

theorem bind_eq_ok {Middle Result : Type v} {action : Except Error Middle}
    {next : Middle → Except Error Result} {result : Result} :
    (action >>= next) = .ok result ↔ ∃ middle, action = .ok middle ∧ next middle = .ok result := by
  cases action with
  | error error =>
      refine iff_of_false (fun done => nomatch done) ?_
      rintro ⟨middle, done, -⟩
      cases done
  | ok middle =>
      constructor
      · intro done
        exact ⟨middle, rfl, done⟩
      · rintro ⟨_, ⟨rfl⟩, done⟩
        exact done

variable {State Next : Type*} {step : State → Item → Except Error State} {state : State}

theorem foldlM_cons_eq_ok {item : Item} {rest : List Item} {result : State} :
    (item :: rest).foldlM step state = .ok result ↔
      ∃ middle, step state item = .ok middle ∧ rest.foldlM step middle = .ok result := by
  rw [List.foldlM_cons]
  exact bind_eq_ok

/-- What every step keeps, a loop that ends keeps. -/
@[elab_as_elim]
theorem holds_of_foldlM {holds : State → Prop}
    (steps : ∀ item ∈ items, ∀ before after, holds before → step before item = .ok after →
      holds after)
    {result : State} (start : holds state) (done : items.foldlM step state = .ok result) :
    holds result := by
  induction items generalizing state with
  | nil =>
      cases done
      exact start
  | cons item rest ih =>
      obtain ⟨first, others⟩ := List.forall_mem_cons.mp steps
      obtain ⟨middle, stepped, remaining⟩ := foldlM_cons_eq_ok.mp done
      exact ih others (first _ _ start stepped) remaining

/-- A loop over states that stand for others is a loop over these. -/
theorem foldlM_map {view : State → Next} {viewed : Next → Item → Except Error Next}
    (same : ∀ state, ∀ item ∈ items, (step state item).map view = viewed (view state) item) :
    (items.foldlM step state).map view = items.foldlM viewed (view state) := by
  induction items generalizing state with
  | nil => rfl
  | cons item rest ih =>
      obtain ⟨first, others⟩ := forall_and.mp fun state => List.forall_mem_cons.mp (same state)
      rw [List.foldlM_cons, List.foldlM_cons, ← first]
      cases step state item with
      | error error => rfl
      | ok next => exact ih others

end Progress

end Foundation.FallibleLoop
