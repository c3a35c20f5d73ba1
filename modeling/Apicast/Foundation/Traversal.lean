import Mathlib.Data.Set.Insert
import Mathlib.Logic.Relation

/-!
# Traversals of graphs

A depth-first traversal marks what it comes to and does not enter what is marked. What it marks
is then closed under the edges of the graph, apart from what had been marked before. Another
traversal follows a link from each vertex, and its vertices are a list when it comes to an end.
-/

namespace Foundation.Traversal

variable {Id : Type*}

section Marking

variable (edge : Id → Id → Prop)

/-- Reached from a start on a path that stays outside what is blocked. -/
def Reaches (blocked : Set Id) (start id : Id) : Prop :=
  start ∉ blocked ∧ Relation.ReflTransGen (fun first next => edge first next ∧ next ∉ blocked)
    start id

/-- What a depth-first traversal marks. -/
structure Marks (starts before after : Set Id) : Prop where
  grows : before ⊆ after
  visited : starts ⊆ after
  closed : ∀ id ∈ after, id ∉ before → ∀ other, edge id other → other ∈ after
  reached : ∀ id ∈ after, id ∉ before → ∃ start ∈ starts, Reaches edge before start id

/-- Closed under the edges of what is not blocked. -/
def Sealed (blocked marked : Set Id) : Prop :=
  ∀ id ∈ marked, id ∉ blocked → ∀ other, edge id other → other ∈ marked

variable {edge} {blocked starts more before middle after : Set Id} {start id : Id}

theorem Reaches.mono (reaches : Reaches edge before start id) (fewer : blocked ⊆ before) :
    Reaches edge blocked start id := by
  obtain ⟨outside, path⟩ := reaches
  refine ⟨fun member => outside (fewer member), Relation.ReflTransGen.mono ?_ _ _ path⟩
  exact fun _ _ ⟨step, unmarked⟩ => ⟨step, fun member => unmarked (fewer member)⟩

/-- Nothing is marked where everything had been. -/
theorem Marks.refl (marked : starts ⊆ before) : Marks edge starts before before :=
  ⟨subset_rfl, marked, fun _ member fresh => absurd member fresh,
    fun _ member fresh => absurd member fresh⟩

theorem Marks.trans (first : Marks edge starts before middle)
    (second : Marks edge more middle after) : Marks edge (starts ∪ more) before after where
  grows := first.grows.trans second.grows
  visited := Set.union_subset (first.visited.trans second.grows) second.visited
  closed id member fresh other step := by
    by_cases early : id ∈ middle
    · exact second.grows (first.closed id early fresh other step)
    · exact second.closed id member early other step
  reached id member fresh := by
    by_cases early : id ∈ middle
    · obtain ⟨start, source, reaches⟩ := first.reached id early fresh
      exact ⟨start, .inl source, reaches⟩
    · obtain ⟨start, source, reaches⟩ := second.reached id member early
      exact ⟨start, .inr source, reaches.mono first.grows⟩

/-- A vertex is marked before its neighbours are visited. -/
theorem Marks.visit (fresh : id ∉ before)
    (neighbours : Marks edge {other | edge id other} (insert id before) after) :
    Marks edge {id} before after where
  grows := (Set.subset_insert id before).trans neighbours.grows
  visited := Set.singleton_subset_iff.mpr (neighbours.grows (Set.mem_insert id before))
  closed other member unmarked next step := by
    by_cases same : other = id
    · subst same
      exact neighbours.visited step
    · exact neighbours.closed other member (fun inside => inside.elim same unmarked) next step
  reached other member unmarked := by
    refine ⟨id, rfl, fresh, ?_⟩
    by_cases same : other = id
    · rw [same]
    · obtain ⟨next, step, reaches⟩ :=
        neighbours.reached other member fun inside => inside.elim same unmarked
      obtain ⟨outside, path⟩ := reaches.mono (Set.subset_insert id before)
      exact .head ⟨step, outside⟩ path

theorem Marks.isSealed (marks : Marks edge starts before after)
    (known : Sealed edge blocked before) : Sealed edge blocked after := by
  intro id member free other step
  by_cases early : id ∈ before
  · exact marks.grows (known id early free other step)
  · exact marks.closed id member early other step

/-- From marks that are sealed, a traversal comes to all that is reached outside what is blocked. -/
theorem Marks.mem_iff (marks : Marks edge starts before after)
    (known : Sealed edge blocked before) (inside : blocked ⊆ before) :
    id ∈ after ↔ id ∈ before ∨ ∃ start ∈ starts, Reaches edge blocked start id := by
  constructor
  · intro member
    by_cases early : id ∈ before
    · exact .inl early
    · obtain ⟨start, source, reaches⟩ := marks.reached id member early
      exact .inr ⟨start, source, reaches.mono inside⟩
  · rintro (early | ⟨start, source, outside, path⟩)
    · exact marks.grows early
    · suffices id ∈ after ∧ id ∉ blocked from this.1
      induction path with
      | refl => exact ⟨marks.visited source, outside⟩
      | tail _ step ih =>
          exact ⟨marks.isSealed known _ ih.1 ih.2 _ step.1, step.2⟩

end Marking

section Links

variable (next : Id → Option Id)

/-- The vertices that a link is followed from, up to one without a link. -/
inductive Linked : Id → List Id → Prop
  | last {id : Id} (ends : next id = none) : Linked id [id]
  | link {id other : Id} {ids : List Id} (linked : next id = some other)
      (rest : Linked other ids) : Linked id (id :: ids)

variable {next} {id : Id} {ids : List Id}

theorem Linked.unique (linked : Linked next id ids) {others : List Id}
    (again : Linked next id others) : ids = others := by
  induction linked generalizing others with
  | last ends =>
      cases again with
      | last => rfl
      | link goesOn => cases ends.symm.trans goesOn
  | link goesOn rest ih =>
      cases again with
      | last ends => cases ends.symm.trans goesOn
      | link same others =>
          cases goesOn.symm.trans same
          rw [ih others]

/-- The vertices from each one on are again such a list. -/
theorem Linked.of_mem (linked : Linked next id ids) {other : Id} (member : other ∈ ids) :
    ∃ before after, ids = before ++ after ∧ Linked next other after := by
  induction linked with
  | last ends =>
      cases List.mem_singleton.mp member
      exact ⟨[], _, rfl, .last ends⟩
  | link goesOn rest ih =>
      rcases List.mem_cons.mp member with rfl | later
      · exact ⟨[], _, rfl, .link goesOn rest⟩
      · obtain ⟨before, after, rfl, linked⟩ := ih later
        exact ⟨_ :: before, after, rfl, linked⟩

/-- No vertex is come to twice where the links come to an end. -/
theorem Linked.not_mem_tail (linked : Linked next id (id :: ids)) : id ∉ ids := by
  intro member
  obtain ⟨before, after, split, again⟩ : ∃ before after, ids = before ++ after ∧
      Linked next id after := by
    cases linked with
    | last => cases member
    | link _ rest => exact rest.of_mem member
  have longer := congrArg List.length (linked.unique again)
  rw [split, List.length_cons, List.length_append] at longer
  omega

end Links

end Foundation.Traversal
