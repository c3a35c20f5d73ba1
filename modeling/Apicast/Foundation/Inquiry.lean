import Mathlib.Data.Option.Basic

/-!
# Inquiries and remembered answers

An inquiry is a computation that asks questions and goes on with the answers. What a question
means is fixed by its plan, an inquiry of its own: it may ask further questions, and a question
whose plans never end has no meaning. A solver that remembers answers takes them from a memory
and follows the plan only when it remembers nothing. If every remembered answer is one that the
plan would give, such a solver ends exactly for the questions that have a meaning, with it.
-/

namespace Foundation

universe u v w x

/-- A computation that asks questions. -/
inductive Inquiry (Question : Type u) (Answer : Type v) (Result : Type w)
  | finish (result : Result)
  | ask (question : Question) (resume : Answer → Inquiry Question Answer Result)

namespace Inquiry

variable {Question : Type u} {Answer : Type v} {Result : Type w} {State : Type x}

/-- Follow an inquiry, with a solver for its questions that may not end. -/
def run (solve : Question → State → Option (Answer × State)) :
    Inquiry Question Answer Result → State → Option (Result × State)
  | finish result, state => some (result, state)
  | ask question resume, state =>
      (solve question state).bind fun answered => (resume answered.1).run solve answered.2

/-- A solver that ends more often follows an inquiry to the same end. -/
theorem run_mono {solve other : Question → State → Option (Answer × State)}
    (stronger : ∀ question state answered, solve question state = some answered →
      other question state = some answered)
    {inquiry : Inquiry Question Answer Result} {state : State} {ended : Result × State}
    (finished : inquiry.run solve state = some ended) :
    inquiry.run other state = some ended := by
  induction inquiry generalizing state with
  | finish result => exact finished
  | ask question resume ih =>
      obtain ⟨answered, solved, rest⟩ := Option.bind_eq_some_iff.mp finished
      exact Option.bind_eq_some_iff.mpr
        ⟨answered, stronger question state answered solved, ih answered.1 rest⟩

section Meaning

variable (plan : Question → Inquiry Question Answer Result)
  (conclude : Question → Result → Answer)

/-- The result of an inquiry whose questions are answered by following their plans. -/
inductive Yields : Inquiry Question Answer Result → Result → Prop
  | finish (result : Result) : Yields (.finish result) result
  | ask {question : Question} {resume : Answer → Inquiry Question Answer Result}
      {inner result : Result} : Yields (plan question) inner →
      Yields (resume (conclude question inner)) result → Yields (.ask question resume) result

/-- The answer of a question whose plan has a result. -/
def Means (question : Question) (answer : Answer) : Prop :=
  ∃ result, Yields plan conclude (plan question) result ∧ conclude question result = answer

variable {plan conclude}

theorem Yields.unique {inquiry : Inquiry Question Answer Result} {result other : Result}
    (yields : Yields plan conclude inquiry result) (also : Yields plan conclude inquiry other) :
    result = other := by
  induction yields generalizing other with
  | finish result =>
      cases also
      rfl
  | ask _ _ inner rest =>
      cases also with
      | ask otherInner otherRest =>
          cases inner otherInner
          exact rest otherRest

theorem Means.unique {question : Question} {answer other : Answer}
    (means : Means plan conclude question answer) (also : Means plan conclude question other) :
    answer = other := by
  obtain ⟨result, yields, rfl⟩ := means
  obtain ⟨otherResult, otherYields, rfl⟩ := also
  rw [yields.unique otherYields]

end Meaning

end Inquiry

open Inquiry

/-- How answers are looked up in a memory, and what is remembered of a result. -/
structure Memory (Question : Type u) (Answer : Type v) (Result : Type w) (State : Type x) where
  lookup : State → Question → Option Answer
  record : State → Question → Result → Answer × State

namespace Memory

variable {Question : Type u} {Answer : Type v} {Result : Type w} {State : Type x}
  (memory : Memory Question Answer Result State)
  (plan : Question → Inquiry Question Answer Result)

/-- Answer a question from the memory or by its plan, as deep as the fuel allows. -/
def solve : Nat → Question → State → Option (Answer × State)
  | 0, _, _ => none
  | fuel + 1, question, state =>
      match memory.lookup state question with
      | some answer => some (answer, state)
      | none => ((plan question).run (solve fuel) state).map fun ended =>
          memory.record ended.2 question ended.1

/-- What is remembered in the states that satisfy a predicate is what the plans give. -/
structure Faithful (conclude : Question → Result → Answer) (holds : State → Prop) : Prop where
  lookup : ∀ state question answer, holds state → memory.lookup state question = some answer →
    Means plan conclude question answer
  record : ∀ state question result, holds state → Yields plan conclude (plan question) result →
    (memory.record state question result).1 = conclude question result ∧
      holds (memory.record state question result).2

variable {memory plan} {conclude : Question → Result → Answer} {holds : State → Prop}

theorem solve_succ {fuel : Nat} {question : Question} {state : State} {ended : Answer × State}
    (solved : memory.solve plan fuel question state = some ended) :
    memory.solve plan (fuel + 1) question state = some ended := by
  induction fuel generalizing question state ended with
  | zero => cases solved
  | succ fuel ih =>
      unfold solve at solved ⊢
      cases found : memory.lookup state question with
      | some answer =>
          rw [found] at solved
          exact solved
      | none =>
          rw [found] at solved
          obtain ⟨finished, followed, same⟩ := Option.map_eq_some_iff.mp solved
          exact Option.map_eq_some_iff.mpr
            ⟨finished, run_mono (fun _ _ _ inner => ih inner) followed, same⟩

theorem solve_le {fuel more : Nat} (enough : fuel ≤ more) {question : Question} {state : State}
    {ended : Answer × State} (solved : memory.solve plan fuel question state = some ended) :
    memory.solve plan more question state = some ended := by
  induction enough with
  | refl => exact solved
  | step _ ih => exact solve_succ ih

/-- An inquiry whose questions get their meaning has the result of its plan. -/
theorem Faithful.of_run {fuel : Nat}
    (sound : ∀ question state answered, holds state →
      memory.solve plan fuel question state = some answered →
        Means plan conclude question answered.1 ∧ holds answered.2)
    {inquiry : Inquiry Question Answer Result} {state : State} {ended : Result × State}
    (held : holds state) (ran : inquiry.run (memory.solve plan fuel) state = some ended) :
    Yields plan conclude inquiry ended.1 ∧ holds ended.2 := by
  induction inquiry generalizing state with
  | finish result =>
      cases ran
      exact ⟨.finish result, held⟩
  | ask question resume ih =>
      obtain ⟨answered, solved, rest⟩ := Option.bind_eq_some_iff.mp ran
      obtain ⟨⟨result, yields, concluded⟩, heldInner⟩ := sound question state answered held solved
      obtain ⟨resumes, heldRest⟩ := ih answered.1 heldInner rest
      rw [← concluded] at resumes
      exact ⟨.ask yields resumes, heldRest⟩

/-- An answer that a faithful memory leads to is the meaning of the question. -/
theorem Faithful.sound (faithful : memory.Faithful plan conclude holds) {fuel : Nat}
    {question : Question} {state : State} {answered : Answer × State} (held : holds state)
    (solved : memory.solve plan fuel question state = some answered) :
    Means plan conclude question answered.1 ∧ holds answered.2 := by
  induction fuel generalizing question state answered with
  | zero => cases solved
  | succ fuel ih =>
      unfold solve at solved
      cases found : memory.lookup state question with
      | some answer =>
          rw [found] at solved
          cases solved
          exact ⟨faithful.lookup state question answer held found, held⟩
      | none =>
          rw [found] at solved
          obtain ⟨ended, ran, rfl⟩ := Option.map_eq_some_iff.mp solved
          obtain ⟨yields, heldAfter⟩ := Faithful.of_run (fun _ _ _ => ih) held ran
          obtain ⟨same, recorded⟩ := faithful.record ended.2 question ended.1 heldAfter yields
          exact ⟨⟨ended.1, yields, same.symm⟩, recorded⟩

/-- A question whose plan can be followed is answered. -/
theorem Faithful.answered (faithful : memory.Faithful plan conclude holds) {question : Question}
    {state : State} {result : Result} (held : holds state)
    (yields : Yields plan conclude (plan question) result)
    (followed : ∃ fuel after,
      (plan question).run (memory.solve plan fuel) state = some (result, after)) :
    ∃ fuel after,
      memory.solve plan fuel question state = some (conclude question result, after) := by
  cases found : memory.lookup state question with
  | some answer =>
      have meant := faithful.lookup state question answer held found
      refine ⟨1, state, ?_⟩
      unfold solve
      rw [found, meant.unique ⟨result, yields, rfl⟩]
  | none =>
      obtain ⟨fuel, after, ran⟩ := followed
      obtain ⟨_, heldAfter⟩ := Faithful.of_run (fun _ _ _ => faithful.sound) held ran
      refine ⟨fuel + 1, (memory.record after question result).2, ?_⟩
      unfold solve
      rw [found, ran, Option.map_some, ← (faithful.record after question result heldAfter yields).1]

/-- An inquiry with a result is followed to its end, given enough fuel. -/
theorem Faithful.run_of_yields (faithful : memory.Faithful plan conclude holds)
    {inquiry : Inquiry Question Answer Result} {result : Result}
    (yields : Yields plan conclude inquiry result) {state : State} (held : holds state) :
    ∃ fuel after, inquiry.run (memory.solve plan fuel) state = some (result, after) := by
  induction yields generalizing state with
  | finish result => exact ⟨0, state, rfl⟩
  | ask inner rest followsInner followsRest =>
      obtain ⟨fuel, after, solved⟩ := faithful.answered held inner (followsInner held)
      obtain ⟨more, ended, ran⟩ := followsRest (faithful.sound held solved).2
      have inside := solve_le (Nat.le_max_left fuel more) solved
      have behind := run_mono (fun _ _ _ => solve_le (Nat.le_max_right fuel more)) ran
      exact ⟨max fuel more, ended, Option.bind_eq_some_iff.mpr ⟨_, inside, behind⟩⟩

/-- From every state that a faithful memory allows, a question is answered with a value exactly
when that is its meaning; a question without a meaning is never answered. -/
theorem Faithful.solves_iff (faithful : memory.Faithful plan conclude holds)
    {question : Question} {state : State} {answer : Answer} (held : holds state) :
    (∃ fuel after, memory.solve plan fuel question state = some (answer, after)) ↔
      Means plan conclude question answer := by
  constructor
  · intro ⟨fuel, after, solved⟩
    exact (faithful.sound held solved).1
  · intro ⟨result, yields, concluded⟩
    obtain ⟨fuel, after, solved⟩ :=
      faithful.answered held yields (faithful.run_of_yields yields held)
    exact ⟨fuel, after, concluded ▸ solved⟩

/-- What is remembered stays remembered, if no record takes it away. -/
theorem Faithful.persists (faithful : memory.Faithful plan conclude holds)
    {other : Question} {remembered : Answer}
    (kept : ∀ state question result, holds state → Yields plan conclude (plan question) result →
      memory.lookup state other = some remembered →
        memory.lookup (memory.record state question result).2 other = some remembered)
    {fuel : Nat} {question : Question} {state : State} {answered : Answer × State}
    (held : holds state) (found : memory.lookup state other = some remembered)
    (solved : memory.solve plan fuel question state = some answered) :
    memory.lookup answered.2 other = some remembered := by
  induction fuel generalizing question state answered with
  | zero => cases solved
  | succ fuel ih =>
      have followed (inquiry : Inquiry Question Answer Result) {state : State}
          {ended : Result × State} (held : holds state)
          (found : memory.lookup state other = some remembered)
          (ran : inquiry.run (memory.solve plan fuel) state = some ended) :
          memory.lookup ended.2 other = some remembered := by
        induction inquiry generalizing state with
        | finish result =>
            cases ran
            exact found
        | ask question resume resumed =>
            obtain ⟨answered, solved, rest⟩ := Option.bind_eq_some_iff.mp ran
            exact resumed answered.1 (faithful.sound held solved).2 (ih held found solved) rest
      unfold solve at solved
      cases known : memory.lookup state question with
      | some answer =>
          rw [known] at solved
          cases solved
          exact found
      | none =>
          rw [known] at solved
          obtain ⟨ended, ran, rfl⟩ := Option.map_eq_some_iff.mp solved
          obtain ⟨yields, heldAfter⟩ := Faithful.of_run (fun _ _ _ => faithful.sound) held ran
          exact kept ended.2 question ended.1 heldAfter yields (followed _ held found ran)

end Memory

end Foundation
