import Mathlib.Data.List.Infix
import Mathlib.Data.List.Nodup

/-!
# Substitution for names in brackets

All names at once, or one name after the other: the texts are the same, whatever they are made from,
exactly when no value is a part of a name that comes after its own.
-/

namespace Foundation

/-- Two letters that stand around a name. -/
structure Brackets (Letter : Type*) where
  opening : Letter
  closing : Letter
  different : opening ≠ closing

namespace Brackets

variable {Letter : Type*} (brackets : Brackets Letter)

def around (name : List Letter) : List Letter := brackets.opening :: (name ++ [brackets.closing])

/-- A name in brackets, with more around it that is in brackets as well. -/
def nested (left name right : List Letter) : List Letter :=
  brackets.opening :: (left ++ (brackets.around name ++ (right ++ [brackets.closing])))

/-- Without brackets. -/
def Free (text : List Letter) : Prop := brackets.opening ∉ text ∧ brackets.closing ∉ text

variable {brackets}

theorem Free.part {text part : List Letter} (free : brackets.Free text) (inside : part <:+: text) :
    brackets.Free part :=
  ⟨mt (inside.subset ·) free.1, mt (inside.subset ·) free.2⟩

theorem around_append (name rest : List Letter) :
    brackets.around name ++ rest = brackets.opening :: (name ++ brackets.closing :: rest) := by
  unfold around
  rw [List.cons_append, List.append_assoc, List.singleton_append]

theorem opening_not_mem_concat {name : List Letter} (free : brackets.Free name) :
    brackets.opening ∉ name ++ [brackets.closing] := by
  rw [List.mem_append, List.mem_singleton]
  exact not_or.mpr ⟨free.1, brackets.different⟩

/-- A name ends at the first bracket that closes. -/
theorem eq_of_concat_prefix {name other rest : List Letter} (free : brackets.closing ∉ name)
    (otherFree : brackets.closing ∉ other)
    (first : name ++ [brackets.closing] <+: other ++ brackets.closing :: rest) : name = other := by
  induction name generalizing other with
  | nil =>
      cases other with
      | nil => rfl
      | cons c other =>
          obtain ⟨same, _⟩ := List.cons_prefix_cons.mp first
          exact absurd (same ▸ List.mem_cons_self) otherFree
  | cons c name ih =>
      cases other with
      | nil =>
          obtain ⟨same, _⟩ := List.cons_prefix_cons.mp first
          exact absurd (same ▸ List.mem_cons_self) free
      | cons d other =>
          obtain ⟨rfl, later⟩ := List.cons_prefix_cons.mp first
          rw [ih (mt (List.mem_cons_of_mem _) free) (mt (List.mem_cons_of_mem _) otherFree) later]

theorem around_prefix_iff {name other rest : List Letter} (free : brackets.closing ∉ name)
    (otherFree : brackets.closing ∉ other) :
    brackets.around name <+: brackets.around other ++ rest ↔ name = other := by
  rw [around_append]
  constructor
  · intro first
    exact eq_of_concat_prefix free otherFree (List.cons_prefix_cons.mp first).2
  · rintro rfl
    exact ⟨rest, around_append name rest⟩

end Brackets

namespace Substitution

/-- What a name stands for. -/
structure Binding (Letter : Type*) where
  name : List Letter
  value : List Letter

variable {Letter : Type*} [DecidableEq Letter] (brackets : Brackets Letter)

/-- The binding of the name in brackets that a text begins with. -/
def begins (bindings : List (Binding Letter)) (text : List Letter) : Option (Binding Letter) :=
  bindings.find? fun binding => (brackets.around binding.name).isPrefixOf text

/-- Every name in brackets is replaced, from the left to the right, after some letters of the last
one. -/
def substituteFrom (bindings : List (Binding Letter)) :
    (skipped : Nat) → List Letter → List Letter
  | _, [] => []
  | skipped + 1, _ :: rest => substituteFrom bindings skipped rest
  | 0, c :: rest =>
      match begins brackets bindings (c :: rest) with
      | some binding =>
          binding.value ++ substituteFrom bindings (binding.name.length + 1) rest
      | none => c :: substituteFrom bindings 0 rest

def substitute (bindings : List (Binding Letter)) (text : List Letter) : List Letter :=
  substituteFrom brackets bindings 0 text

/-- One name after the other. -/
def substituteEach (bindings : List (Binding Letter)) (text : List Letter) : List Letter :=
  bindings.foldl (fun text binding => substitute brackets [binding] text) text

section Steps

variable {brackets} {bindings : List (Binding Letter)} {binding : Binding Letter}
  {name text rest : List Letter}

theorem substituteFrom_append (skipped rest : List Letter) :
    substituteFrom brackets bindings skipped.length (skipped ++ rest) =
      substitute brackets bindings rest := by
  induction skipped with
  | nil => rfl
  | cons c skipped ih => exact ih

@[simp] theorem substitute_nil : substitute brackets bindings [] = [] := rfl

theorem begins_eq_none_iff :
    begins brackets bindings text = none ↔
      ∀ binding ∈ bindings, ¬ brackets.around binding.name <+: text := by
  unfold begins
  simp only [List.find?_eq_none, List.isPrefixOf_iff_prefix]

theorem of_begins (first : begins brackets bindings text = some binding) :
    binding ∈ bindings ∧ brackets.around binding.name <+: text :=
  ⟨List.mem_of_find?_eq_some first, by simpa using List.find?_some first⟩

theorem substitute_of_begins
    (first : begins brackets bindings (brackets.around binding.name ++ rest) = some binding) :
    substitute brackets bindings (brackets.around binding.name ++ rest) =
      binding.value ++ substitute brackets bindings rest := by
  rw [← substituteFrom_append (binding.name ++ [brackets.closing]) rest, List.length_append]
  unfold Brackets.around at first ⊢
  rw [List.cons_append] at first ⊢
  unfold substitute
  rw [substituteFrom, first]
  rfl

theorem substitute_of_not_begins {c : Letter}
    (other : begins brackets bindings (c :: rest) = none) :
    substitute brackets bindings (c :: rest) = c :: substitute brackets bindings rest := by
  unfold substitute
  rw [substituteFrom, other]

theorem begins_around (free : ∀ binding ∈ bindings, brackets.Free binding.name)
    (distinct : (bindings.map Binding.name).Nodup) (member : binding ∈ bindings) :
    begins brackets bindings (brackets.around binding.name ++ rest) = some binding := by
  have own (other : Binding Letter) (among : other ∈ bindings) :
      (brackets.around other.name).isPrefixOf (brackets.around binding.name ++ rest) = true ↔
        other = binding := by
    rw [List.isPrefixOf_iff_prefix,
      Brackets.around_prefix_iff (free other among).2 (free binding member).2]
    exact ⟨List.inj_on_of_nodup_map distinct among member, congrArg Binding.name⟩
  cases first : begins brackets bindings (brackets.around binding.name ++ rest) with
  | none =>
      exact absurd (List.isPrefixOf_iff_prefix.mp ((own binding member).mpr rfl))
        (begins_eq_none_iff.mp first binding member)
  | some found =>
      obtain ⟨among, starts⟩ := of_begins first
      exact congrArg some ((own found among).mp (List.isPrefixOf_iff_prefix.mpr starts))

/-- A name that is not bound, in brackets. -/
theorem begins_around_other (free : ∀ binding ∈ bindings, brackets.Free binding.name)
    (ownFree : brackets.Free name) (unbound : ∀ binding ∈ bindings, binding.name ≠ name) :
    begins brackets bindings (brackets.around name ++ rest) = none :=
  begins_eq_none_iff.mpr fun binding member first =>
    unbound binding member
      ((Brackets.around_prefix_iff (free binding member).2 ownFree.2).mp first)

theorem substitute_free_append (free : brackets.opening ∉ text) (rest : List Letter) :
    substitute brackets bindings (text ++ rest) = text ++ substitute brackets bindings rest := by
  induction text with
  | nil => rfl
  | cons c text ih =>
      obtain ⟨other, others⟩ := not_or.mp (mt List.mem_cons.mpr free)
      rw [List.cons_append, substitute_of_not_begins, ih others, List.cons_append]
      exact begins_eq_none_iff.mpr fun binding _ first =>
        other (List.cons_prefix_cons.mp first).1

theorem substitute_free (free : brackets.opening ∉ text) :
    substitute brackets bindings text = text := by
  have whole : substitute brackets bindings (text ++ []) =
      text ++ substitute brackets bindings [] :=
    substitute_free_append free []
  rwa [List.append_nil, substitute_nil, List.append_nil] at whole

theorem substitute_around (free : ∀ binding ∈ bindings, brackets.Free binding.name)
    (distinct : (bindings.map Binding.name).Nodup) (member : binding ∈ bindings)
    (rest : List Letter) :
    substitute brackets bindings (brackets.around binding.name ++ rest) =
      binding.value ++ substitute brackets bindings rest :=
  substitute_of_begins (begins_around free distinct member)

theorem substitute_around_other (free : ∀ binding ∈ bindings, brackets.Free binding.name)
    (ownFree : brackets.Free name) (unbound : ∀ binding ∈ bindings, binding.name ≠ name)
    (rest : List Letter) :
    substitute brackets bindings (brackets.around name ++ rest) =
      brackets.around name ++ substitute brackets bindings rest := by
  have other : begins brackets bindings (brackets.around name ++ rest) = none :=
    begins_around_other free ownFree unbound
  rw [Brackets.around_append] at other ⊢
  rw [substitute_of_not_begins other, Brackets.around_append, ← List.singleton_append (l := rest),
    ← List.append_assoc, substitute_free_append (Brackets.opening_not_mem_concat ownFree),
    List.append_assoc, List.singleton_append]

/-- A bracket that opens before another one is left alone. -/
theorem substitute_unclosed (free : ∀ binding ∈ bindings, brackets.Free binding.name)
    (ownFree : brackets.Free name) (rest : List Letter) :
    substitute brackets bindings (brackets.opening :: (name ++ brackets.opening :: rest)) =
      brackets.opening :: (name ++ substitute brackets bindings (brackets.opening :: rest)) := by
  rw [substitute_of_not_begins, substitute_free_append ownFree.1]
  refine begins_eq_none_iff.mpr fun binding member first => ?_
  have inside := (List.cons_prefix_cons.mp first).2
  have before : name ++ [brackets.opening] <+: name ++ brackets.opening :: rest :=
    ⟨rest, by rw [List.append_assoc, List.singleton_append]⟩
  obtain shorter | longer := List.prefix_or_prefix_of_prefix inside before
  · obtain same | shorter := List.prefix_concat_iff.mp shorter
    · exact brackets.different (List.cons.inj (List.append_inj_right' same rfl)).1.symm
    · exact ownFree.2 (shorter.subset (List.mem_append_right _ List.mem_cons_self))
  · exact Brackets.opening_not_mem_concat (free binding member)
      (longer.subset (List.mem_append_right _ List.mem_cons_self))

variable (brackets bindings) in
/-- A text is empty, or it begins with a name in brackets that is bound, or with another letter. -/
theorem text_induction {motive : List Letter → Prop} (nil : motive [])
    (bound : ∀ binding rest,
      begins brackets bindings (brackets.around binding.name ++ rest) = some binding →
        binding ∈ bindings → motive rest → motive (brackets.around binding.name ++ rest))
    (letter : ∀ c rest, begins brackets bindings (c :: rest) = none → motive rest →
      motive (c :: rest)) (text : List Letter) : motive text := by
  induction length : text.length using Nat.strong_induction_on generalizing text with
  | _ length ih =>
      subst length
      cases text with
      | nil => exact nil
      | cons c rest =>
          cases first : begins brackets bindings (c :: rest) with
          | none => exact letter c rest first (ih _ (Nat.lt_succ_self _) rest rfl)
          | some binding =>
              obtain ⟨member, after, same⟩ := of_begins first
              rw [← same] at first ⊢
              refine bound binding after first member (ih _ ?_ after rfl)
              rw [← same, List.length_append]
              exact Nat.lt_add_of_pos_left (Nat.succ_pos _)

end Steps

section Order

variable {brackets} {bindings : List (Binding Letter)} {binding : Binding Letter}
  {name : List Letter}

omit [DecidableEq Letter] in
/-- A value that is not a part of a name does not begin what is left of the name. -/
theorem not_prefix_value_append (valueFree : brackets.closing ∉ binding.value)
    (apart : ¬ binding.value <:+: name) (rest : List Letter) :
    ¬ name ++ [brackets.closing] <+: binding.value ++ rest := by
  intro first
  obtain shorter | longer := List.prefix_or_prefix_of_prefix first (List.prefix_append ..)
  · exact valueFree (shorter.subset (List.mem_append_right _ List.mem_cons_self))
  · obtain same | inside := List.prefix_concat_iff.mp longer
    · exact valueFree (same ▸ List.mem_append_right _ List.mem_cons_self)
    · exact apart inside.isInfix

/-- Where the value is not a part of a name, the substitution does not make the rest of the name. -/
theorem prefix_of_prefix_substitute (valueFree : brackets.closing ∉ binding.value)
    (text : List Letter) (apart : ¬ binding.value <:+: name)
    (first : name ++ [brackets.closing] <+: substitute brackets [binding] text) :
    name ++ [brackets.closing] <+: text := by
  induction text using text_induction brackets [binding]
    generalizing name with
  | nil => exact first
  | bound other rest begins member _ =>
      obtain rfl := List.mem_singleton.mp member
      rw [substitute_of_begins begins] at first
      exact absurd first (not_prefix_value_append valueFree apart _)
  | letter c rest other ih =>
      rw [substitute_of_not_begins other] at first
      cases name with
      | nil =>
          obtain ⟨rfl, _⟩ := List.cons_prefix_cons.mp first
          exact List.prefix_append [_] rest
      | cons d name =>
          obtain ⟨rfl, later⟩ := List.cons_prefix_cons.mp first
          have rest :=
            ih (fun inside => apart (inside.trans (List.suffix_cons d name).isInfix)) later
          exact List.cons_prefix_cons.mpr ⟨rfl, rest⟩

/-- A name before the others, when its value is not a part of any of them. -/
theorem substitute_cons (free : ∀ other ∈ binding :: bindings, brackets.Free other.name)
    (distinct : ((binding :: bindings).map Binding.name).Nodup)
    (valueFree : brackets.Free binding.value)
    (apart : ∀ other ∈ bindings, ¬ binding.value <:+: other.name) (text : List Letter) :
    substitute brackets bindings (substitute brackets [binding] text) =
      substitute brackets (binding :: bindings) text := by
  obtain ⟨ownFree, othersFree⟩ := List.forall_mem_cons.mp free
  obtain ⟨own, others⟩ := List.nodup_cons.mp distinct
  have alone : ∀ other ∈ [binding], brackets.Free other.name :=
    List.forall_mem_singleton.mpr ownFree
  induction text using text_induction brackets (binding :: bindings) with
  | nil => rfl
  | bound other rest begins member ih =>
      rw [substitute_of_begins begins]
      obtain rfl | later := List.mem_cons.mp member
      · rw [substitute_around alone (List.nodup_singleton _) List.mem_cons_self,
          substitute_free_append valueFree.1, ih]
      · have different : ∀ first ∈ [binding], first.name ≠ other.name :=
          List.forall_mem_singleton.mpr fun same => own (same ▸ List.mem_map_of_mem later)
        rw [substitute_around_other alone (othersFree other later) different,
          substitute_around othersFree others later, ih]
  | letter c rest other ih =>
      have absent := begins_eq_none_iff.mp other
      have first : begins brackets [binding] (c :: rest) = none :=
        begins_eq_none_iff.mpr (List.forall_mem_singleton.mpr (absent binding List.mem_cons_self))
      rw [substitute_of_not_begins first, substitute_of_not_begins other, substitute_of_not_begins,
        ih]
      refine begins_eq_none_iff.mpr fun later member starts => ?_
      obtain ⟨rfl, inside⟩ := List.cons_prefix_cons.mp starts
      exact absent later (List.mem_cons_of_mem _ member) (List.cons_prefix_cons.mpr
        ⟨rfl, prefix_of_prefix_substitute valueFree.2 rest (apart later member) inside⟩)

/-- The values are free of brackets, and no value is a part of a later name. -/
theorem substituteEach_eq (free : ∀ binding ∈ bindings, brackets.Free binding.name)
    (distinct : (bindings.map Binding.name).Nodup)
    (valuesFree : ∀ binding ∈ bindings, brackets.Free binding.value)
    (apart : bindings.Pairwise fun binding later => ¬ binding.value <:+: later.name)
    (text : List Letter) :
    substituteEach brackets bindings text = substitute brackets bindings text := by
  induction bindings generalizing text with
  | nil =>
      induction text with
      | nil => rfl
      | cons c rest ih => exact (congrArg (c :: ·) ih).trans (substitute_of_not_begins rfl).symm
  | cons binding bindings ih =>
      obtain ⟨own, others⟩ := List.pairwise_cons.mp apart
      obtain ⟨valueFree, laterFree⟩ := List.forall_mem_cons.mp valuesFree
      have later := ih (List.forall_mem_cons.mp free).2 (List.nodup_cons.mp distinct).2 laterFree
        others (substitute brackets [binding] text)
      exact later.trans (substitute_cons free distinct valueFree own text)

end Order

section Apart

variable {brackets} {bindings : List (Binding Letter)} {name text : List Letter}

@[simp] theorem substituteEach_cons (binding : Binding Letter) (bindings : List (Binding Letter))
    (text : List Letter) :
    substituteEach brackets (binding :: bindings) text =
      substituteEach brackets bindings (substitute brackets [binding] text) :=
  rfl

theorem substituteEach_append (first later : List (Binding Letter)) (text : List Letter) :
    substituteEach brackets (first ++ later) text =
      substituteEach brackets later (substituteEach brackets first text) :=
  List.foldl_append

theorem substituteEach_of_fixed
    (fixed : ∀ binding ∈ bindings, substitute brackets [binding] text = text) :
    substituteEach brackets bindings text = text := by
  unfold substituteEach
  induction bindings with
  | nil => rfl
  | cons binding bindings ih =>
      obtain ⟨own, others⟩ := List.forall_mem_cons.mp fixed
      rw [List.foldl_cons, own, ih others]

theorem substituteEach_free (free : brackets.opening ∉ text) :
    substituteEach brackets bindings text = text :=
  substituteEach_of_fixed fun _ _ => substitute_free free

/-- A substitution for other names leaves a name in brackets alone. -/
theorem substituteEach_around_other (free : ∀ binding ∈ bindings, brackets.Free binding.name)
    (ownFree : brackets.Free name) (unbound : ∀ binding ∈ bindings, binding.name ≠ name) :
    substituteEach brackets bindings (brackets.around name) = brackets.around name := by
  refine substituteEach_of_fixed fun binding member => ?_
  have alone : substitute brackets [binding] (brackets.around name ++ []) =
      brackets.around name ++ substitute brackets [binding] [] :=
    substitute_around_other (List.forall_mem_singleton.mpr (free binding member)) ownFree
      (List.forall_mem_singleton.mpr (unbound binding member)) []
  rwa [List.append_nil, substitute_nil, List.append_nil] at alone

variable {left right : List Letter}

theorem substitute_nested (free : ∀ binding ∈ bindings, brackets.Free binding.name)
    (leftFree : brackets.Free left) :
    substitute brackets bindings (brackets.nested left name right) =
      brackets.opening :: (left ++
        substitute brackets bindings (brackets.around name ++ (right ++ [brackets.closing]))) := by
  unfold Brackets.nested
  rw [Brackets.around_append, substitute_unclosed free leftFree]

theorem substitute_nested_bound {binding : Binding Letter}
    (free : ∀ binding ∈ bindings, brackets.Free binding.name)
    (distinct : (bindings.map Binding.name).Nodup) (member : binding ∈ bindings)
    (leftFree : brackets.Free left) (rightFree : brackets.Free right) :
    substitute brackets bindings (brackets.nested left binding.name right) =
      brackets.around (left ++ binding.value ++ right) := by
  rw [substitute_nested free leftFree, substitute_around free distinct member,
    substitute_free (Brackets.opening_not_mem_concat rightFree)]
  unfold Brackets.around
  rw [List.append_assoc, List.append_assoc]

theorem substitute_nested_other (free : ∀ binding ∈ bindings, brackets.Free binding.name)
    (ownFree : brackets.Free name) (unbound : ∀ binding ∈ bindings, binding.name ≠ name)
    (leftFree : brackets.Free left) (rightFree : brackets.Free right) :
    substitute brackets bindings (brackets.nested left name right) =
      brackets.nested left name right := by
  rw [substitute_nested free leftFree, substitute_around_other free ownFree unbound,
    substitute_free (Brackets.opening_not_mem_concat rightFree)]
  rfl

/-- A value that is a part of a later name makes that name, when it is put into the rest of it. -/
theorem not_infix_of_substituteEach_eq {binding later : Binding Letter}
    {before between after : List (Binding Letter)}
    (whole : bindings = before ++ binding :: (between ++ later :: after))
    (free : ∀ other ∈ bindings, brackets.Free other.name)
    (distinct : (bindings.map Binding.name).Nodup) (laterFree : brackets.Free later.value)
    (same : ∀ text, substituteEach brackets bindings text = substitute brackets bindings text) :
    ¬ binding.value <:+: later.name := by
  rintro ⟨left, right, parts⟩
  have member : binding ∈ bindings := by simp [whole]
  have laterMember : later ∈ bindings := by simp [whole]
  have beforeFree : ∀ other ∈ before, brackets.Free other.name :=
    fun other among => free other (by simp [whole, among])
  have betweenFree : ∀ other ∈ between, brackets.Free other.name :=
    fun other among => free other (by simp [whole, among])
  have different : binding.name ∉ before.map Binding.name ∧
      later.name ∉ between.map Binding.name := by
    simp only [whole, List.map_append, List.map_cons, List.nodup_cons, List.nodup_append,
      List.mem_append, not_or] at distinct
    tauto
  have leftFree : brackets.Free left :=
    (free later laterMember).part ⟨[], binding.value ++ right, by simp [← parts]⟩
  have rightFree : brackets.Free right :=
    (free later laterMember).part ⟨left ++ binding.value, [], by simp [← parts]⟩
  -- The names before leave the text alone.
  have first : substituteEach brackets before (brackets.nested left binding.name right) =
      brackets.nested left binding.name right := by
    refine substituteEach_of_fixed fun other among => ?_
    exact substitute_nested_other (List.forall_mem_singleton.mpr (beforeFree other among))
      (free binding member) (List.forall_mem_singleton.mpr fun equal =>
        different.1 (equal ▸ List.mem_map_of_mem among)) leftFree rightFree
  have made : substitute brackets [binding] (brackets.nested left binding.name right) =
      brackets.around later.name := by
    rw [substitute_nested_bound (List.forall_mem_singleton.mpr (free binding member))
      (List.nodup_singleton _) List.mem_cons_self leftFree rightFree, parts]
  have kept : substituteEach brackets between (brackets.around later.name) =
      brackets.around later.name :=
    substituteEach_around_other betweenFree (free later laterMember) fun other among equal =>
      different.2 (equal ▸ List.mem_map_of_mem among)
  have replaced : substitute brackets [later] (brackets.around later.name) = later.value := by
    have own := substitute_around (List.forall_mem_singleton.mpr (free later laterMember))
      (List.nodup_singleton _) List.mem_cons_self []
    rwa [List.append_nil, substitute_nil, List.append_nil] at own
  have each : substituteEach brackets bindings (brackets.nested left binding.name right) =
      later.value := by
    calc
      substituteEach brackets bindings (brackets.nested left binding.name right)
          = substituteEach brackets after (substitute brackets [later]
              (substituteEach brackets between (substitute brackets [binding]
                (substituteEach brackets before (brackets.nested left binding.name right))))) := by
            rw [whole, substituteEach_append, substituteEach_cons, substituteEach_append,
              substituteEach_cons]
      _ = later.value := by
            rw [first, made, kept, replaced, substituteEach_free laterFree.1]
  have once := same (brackets.nested left binding.name right)
  rw [each, substitute_nested_bound free distinct member leftFree rightFree, parts] at once
  exact laterFree.1 (once ▸ List.mem_cons_self)

/-- One name after the other makes of each text what all of them at once do, exactly when no value
is a part of a later name. -/
theorem substituteEach_eq_iff (free : ∀ binding ∈ bindings, brackets.Free binding.name)
    (distinct : (bindings.map Binding.name).Nodup)
    (valuesFree : ∀ binding ∈ bindings, brackets.Free binding.value) :
    (∀ text, substituteEach brackets bindings text = substitute brackets bindings text) ↔
      bindings.Pairwise fun binding later => ¬ binding.value <:+: later.name := by
  constructor
  · intro same
    rw [List.pairwise_iff_forall_sublist]
    intro binding later pair
    obtain ⟨front, back, rfl, first, others⟩ := List.cons_sublist_iff.mp pair
    obtain ⟨before, between, rfl⟩ := List.append_of_mem first
    obtain ⟨more, after, rfl⟩ := List.append_of_mem (List.singleton_sublist.mp others)
    have whole : before ++ binding :: between ++ (more ++ later :: after) =
        before ++ binding :: ((between ++ more) ++ later :: after) := by
      simp only [List.append_assoc, List.cons_append]
    exact not_infix_of_substituteEach_eq whole free distinct
      (valuesFree later (by simp)) same
  · exact fun apart => substituteEach_eq free distinct valuesFree apart

end Apart

end Substitution

end Foundation
