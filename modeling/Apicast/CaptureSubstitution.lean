import Apicast.NamedArgsMatcher

/-!
# What the captured texts make of a template

The named arguments of a rule are replaced one after the other, each by a regular substitution whose
expression is the argument and whose replacement is the captured text. It is the substitution of all
of them at once, and a literal one, exactly when no captured text has a reference to a group in it
or is a part of the name of a later argument.
-/

namespace Apicast.RewriteUrlCaptures

open Foundation Substitution

/-- A name that is an expression for itself between its braces: without operators, and not of what a
quantifier has in its braces. -/
def PlainName (name : List Char) : Prop :=
  (∀ c ∈ name, c ∉ RegexSyntax.special ∧ c ≠ '}') ∧
    ∃ c ∈ name, ¬ (c.isDigit ∨ c = ',' ∨ c = ' ' ∨ c = '\t')

instance (name : List Char) : Decidable (PlainName name) :=
  @instDecidableAnd _ _ (List.decidableBAll _ name) (List.decidableBEx _ name)

/-- A plain name in braces matches what it is. The replacement has references, as documented for
`ngx.re.gsub`. -/
def Documented (library : Library) : Prop :=
  ∀ name, PlainName name → ∀ subject replacement,
    library.reGsub subject (braces.around name) replacement =
      (Replacement.compile replacement).map fun pieces =>
        substitute braces [⟨name, Replacement.expand [braces.around name] pieces⟩] subject

/-- An argument of a rule, with what its group captured. -/
structure Argument where
  name : List Char
  captured : Option (List Char)

namespace Argument

variable (argument : Argument)

/-- The text that the argument stands for. -/
def text : List Char := argument.captured.getD []

def binding : Binding Char := ⟨argument.name, argument.text⟩

/-- What a substitution puts into the place of the argument. -/
def inserted : Option (List Char) :=
  (Replacement.compile (groupText argument.captured)).map
    (Replacement.expand [braces.around argument.name])

/-- The captured text is literal as a replacement. -/
def IsLiteral : Prop := ∃ text, argument.captured = some text ∧ '$' ∉ text

end Argument

def arguments (matchRule : List Char) (captured : List (Option (List Char))) : List Argument :=
  ((argNames 0 matchRule).zip captured).map fun (name, captured) => ⟨name, captured⟩

/-- The captured texts are literal, without braces, and not a part of the name of a later
argument. -/
structure LiteralArguments (arguments : List Argument) : Prop where
  plain : ∀ argument ∈ arguments, PlainName argument.name
  free : ∀ argument ∈ arguments, braces.Free argument.text
  literal : ∀ argument ∈ arguments, argument.IsLiteral
  apart : arguments.Pairwise fun argument later => ¬ argument.text <:+: later.name

section Rounds

variable {library : Library} (documented : Documented library) {arguments : List Argument}
  {argument : Argument}

theorem PlainName.free {name : List Char} (plain : PlainName name) : braces.Free name :=
  ⟨fun inside => (plain.1 _ inside).1 (by decide), fun inside => (plain.1 _ inside).2 rfl⟩

theorem PlainName.dollar_not_mem_around {name : List Char} (plain : PlainName name) :
    '$' ∉ braces.around name := by
  unfold Brackets.around
  rw [List.mem_cons, List.mem_append, List.mem_singleton]
  rintro (brace | inside | brace)
  · exact absurd brace (by decide)
  · exact (plain.1 _ inside).1 (by decide)
  · exact absurd brace (by decide)

/-- What is inserted is the captured text exactly when it is literal. -/
theorem Argument.inserted_of_isLiteral (literal : argument.IsLiteral) :
    argument.inserted = some argument.text := by
  obtain ⟨text, captured, plain⟩ := literal
  unfold inserted Argument.text
  rw [captured]
  exact Replacement.expand_compile_of_plain plain _

/-- One round of the loop, for the name of an argument. -/
def replaceNamed (library : Library) (res : Option (List Char)) (argument : Argument) :
    Option (List Char) :=
  replaceArg library res (braces.around argument.name, argument.captured)

include documented in
/-- An argument is replaced by its value wherever its name stands in braces. -/
theorem replaceNamed_eq (plain : PlainName argument.name) (res : Option (List Char)) :
    replaceNamed library res argument =
      argument.inserted.map fun value =>
        substitute braces [⟨argument.name, value⟩] (resultText res) := by
  refine (documented argument.name plain _ _).trans ?_
  unfold Argument.inserted
  rw [Option.map_map]
  rfl

/-- The text of an error has no braces in it. -/
theorem opening_not_mem_nil : braces.opening ∉ resultText none := by decide

include documented in
/-- After an error there is nothing more to replace. -/
theorem foldl_replaceNamed_of_failed (plain : ∀ argument ∈ arguments, PlainName argument.name)
    {res : Option (List Char)} (failed : resultText res = resultText none) :
    resultText (arguments.foldl (replaceNamed library) res) = resultText none := by
  induction arguments generalizing res with
  | nil => exact failed
  | cons argument arguments ih =>
      obtain ⟨own, others⟩ := List.forall_mem_cons.mp plain
      refine ih others ?_
      rw [replaceNamed_eq documented own, failed]
      cases argument.inserted with
      | none => rfl
      | some value => exact substitute_free opening_not_mem_nil

/-- The bindings for what is inserted. -/
def insertedBinding (argument : Argument) : Binding Char :=
  ⟨argument.name, argument.inserted.getD []⟩

include documented in
/-- The loop is the substitution of one name after the other, when every replacement compiles. -/
theorem foldl_replaceNamed (plain : ∀ argument ∈ arguments, PlainName argument.name)
    (compiled : ∀ argument ∈ arguments, argument.inserted.isSome) (text : List Char) :
    arguments.foldl (replaceNamed library) (some text) =
      some (substituteEach braces (arguments.map insertedBinding) text) := by
  induction arguments generalizing text with
  | nil => rfl
  | cons argument arguments ih =>
      obtain ⟨own, others⟩ := List.forall_mem_cons.mp plain
      obtain ⟨first, later⟩ := List.forall_mem_cons.mp compiled
      obtain ⟨value, found⟩ := Option.isSome_iff_exists.mp first
      have round : replaceNamed library (some text) argument =
          some (substitute braces [insertedBinding argument] text) := by
        unfold insertedBinding
        rw [replaceNamed_eq documented own, found]
        rfl
      rw [List.foldl_cons, round, ih others later, List.map_cons, substituteEach_cons]

end Rounds

section Loop

variable {library : Library} (documented : Documented library) {arguments : List Argument}

/-- All arguments are replaced at once, by the captured texts. -/
def Simultaneous (library : Library) (arguments : List Argument) : Prop :=
  ∀ template, arguments.foldl (replaceNamed library) (some template) =
    some (substitute braces (arguments.map Argument.binding) template)

theorem map_insertedBinding (literal : ∀ argument ∈ arguments, argument.IsLiteral) :
    arguments.map insertedBinding = arguments.map Argument.binding := by
  refine List.map_congr_left fun argument member => ?_
  unfold insertedBinding Argument.binding
  rw [argument.inserted_of_isLiteral (literal argument member)]
  rfl

theorem names_binding : (arguments.map Argument.binding).map Binding.name =
    arguments.map Argument.name := by
  rw [List.map_map]
  rfl

theorem free_binding (plain : ∀ argument ∈ arguments, PlainName argument.name) :
    ∀ binding ∈ arguments.map Argument.binding, braces.Free binding.name :=
  List.forall_mem_map.mpr fun argument member => (plain argument member).free

theorem pairwise_binding :
    ((arguments.map Argument.binding).Pairwise fun binding later =>
        ¬ binding.value <:+: later.name) ↔
      arguments.Pairwise fun argument later => ¬ argument.text <:+: later.name :=
  List.pairwise_map

include documented in
/-- Literal arguments, none of which is a part of the name of a later one, are substituted as if
all at once. -/
theorem simultaneous_of_literal (distinct : (arguments.map Argument.name).Nodup)
    (literal : LiteralArguments arguments) : Simultaneous library arguments := by
  intro template
  have compiled : ∀ argument ∈ arguments, argument.inserted.isSome := fun argument member =>
    Option.isSome_of_eq_some (argument.inserted_of_isLiteral (literal.literal argument member))
  rw [foldl_replaceNamed documented literal.plain compiled, map_insertedBinding literal.literal]
  refine congrArg some (substituteEach_eq (free_binding literal.plain) ?_ ?_ ?_ template)
  · rwa [names_binding]
  · exact List.forall_mem_map.mpr literal.free
  · exact pairwise_binding.mpr literal.apart

include documented in
/-- An error leaves nothing of any template, not even of the empty one. -/
theorem isSome_inserted_of_simultaneous
    (plain : ∀ argument ∈ arguments, PlainName argument.name)
    (simultaneous : Simultaneous library arguments) :
    ∀ argument ∈ arguments, argument.inserted.isSome := by
  intro argument member
  by_contra error
  rw [Bool.not_eq_true, Option.isSome_eq_false_iff, Option.isNone_iff_eq_none] at error
  obtain ⟨before, after, rfl⟩ := List.append_of_mem member
  have own := plain argument member
  have laterPlain : ∀ later ∈ after, PlainName later.name := fun later among =>
    plain later (List.mem_append_right _ (List.mem_cons_of_mem _ among))
  have nothing := congrArg resultText (simultaneous [])
  rw [List.foldl_append, List.foldl_cons, replaceNamed_eq documented own, error,
    Option.map_none, foldl_replaceNamed_of_failed documented laterPlain rfl] at nothing
  nomatch nothing

open Replacement (dollars) in
/-- A substitution of texts without `$` adds none. -/
theorem dollars_substituteEach_le (literal : ∀ argument ∈ arguments, argument.IsLiteral)
    (text : List Char) :
    dollars (substituteEach braces (arguments.map Argument.binding) text) ≤ dollars text := by
  have once (argument : Argument) (literal : argument.IsLiteral) (text : List Char) :
      dollars (substitute braces [argument.binding] text) ≤ dollars text := by
    induction text using text_induction braces [argument.binding] with
    | nil => exact le_rfl
    | bound binding rest begins member ih =>
        obtain rfl := List.mem_singleton.mp member
        obtain ⟨text, captured, plain⟩ := literal
        have without : dollars argument.binding.value = 0 :=
          List.count_eq_zero.mpr (by rwa [Argument.binding, Argument.text, captured])
        rw [substitute_of_begins begins]
        unfold dollars at without ih ⊢
        rw [List.count_append, List.count_append, without, Nat.zero_add]
        exact ih.trans (Nat.le_add_left _ _)
    | letter c rest other ih =>
        rw [substitute_of_not_begins other]
        unfold dollars at ih ⊢
        rw [List.count_cons, List.count_cons]
        exact Nat.add_le_add_right ih _
  induction arguments generalizing text with
  | nil => exact le_rfl
  | cons argument arguments ih =>
      obtain ⟨own, others⟩ := List.forall_mem_cons.mp literal
      exact (ih others _).trans (once argument own text)

/-- What the last arguments make of the place of the one before them. -/
theorem substituteEach_inserted {before after : List Argument} {argument : Argument}
    (plain : ∀ argument ∈ before, PlainName argument.name) (own : PlainName argument.name)
    (distinct : argument.name ∉ before.map Argument.name) :
    substituteEach braces ((before ++ argument :: after).map insertedBinding)
        (braces.around argument.name) =
      substituteEach braces (after.map insertedBinding) (argument.inserted.getD []) := by
  have kept : substituteEach braces (before.map insertedBinding) (braces.around argument.name) =
      braces.around argument.name := by
    refine substituteEach_around_other ?_ own.free ?_
    · exact List.forall_mem_map.mpr fun argument member => (plain argument member).free
    · exact List.forall_mem_map.mpr fun other member equal =>
        distinct (equal ▸ List.mem_map_of_mem member)
  have replaced : substitute braces [insertedBinding argument] (braces.around argument.name ++ []) =
      (insertedBinding argument).value ++ substitute braces [insertedBinding argument] [] :=
    substitute_around (List.forall_mem_singleton.mpr own.free) (List.nodup_singleton _)
      List.mem_cons_self []
  rw [List.append_nil, substitute_nil, List.append_nil] at replaced
  rw [List.map_append, List.map_cons, substituteEach_append, kept, substituteEach_cons, replaced]
  rfl

theorem dollar_not_mem_false : '$' ∉ groupText none := by decide

/-- By induction from the last argument on: the ones behind it do not put back what is lost. -/
theorem isLiteral_of_simultaneous (before : List Argument) {after : List Argument}
    (plain : ∀ argument ∈ before ++ after, PlainName argument.name)
    (distinct : ((before ++ after).map Argument.name).Nodup)
    (compiled : ∀ argument ∈ before ++ after, argument.inserted.isSome)
    (same : ∀ text, substituteEach braces ((before ++ after).map insertedBinding) text =
      substitute braces ((before ++ after).map Argument.binding) text) :
    ∀ argument ∈ after, argument.IsLiteral := by
  induction after generalizing before with
  | nil => exact fun _ member => nomatch member
  | cons argument after ih =>
      have literal : ∀ later ∈ after, later.IsLiteral := by
        have split : before ++ argument :: after = before ++ [argument] ++ after := by
          rw [List.append_assoc, List.singleton_append]
        rw [split] at plain distinct compiled same
        exact ih _ plain distinct compiled same
      refine List.forall_mem_cons.mpr ⟨?_, literal⟩
      have member : argument ∈ before ++ argument :: after :=
        List.mem_append_right _ List.mem_cons_self
      have own := plain argument member
      obtain ⟨value, found⟩ := Option.isSome_iff_exists.mp (compiled argument member)
      have made : substituteEach braces (after.map Argument.binding) value = argument.text := by
        have earlier : argument.name ∉ before.map Argument.name := by
          rw [List.map_append, List.map_cons] at distinct
          exact fun among => (List.nodup_append.mp distinct).2.2 _ among _ List.mem_cons_self rfl
        have alone := same (braces.around argument.name)
        rw [substituteEach_inserted (fun other among => plain other (List.mem_append_left _ among))
          own earlier, found, map_insertedBinding literal] at alone
        refine alone.trans ?_
        have whole := substitute_around (free_binding plain) (names_binding ▸ distinct)
          (List.mem_map_of_mem member) []
        rwa [List.append_nil, substitute_nil, List.append_nil] at whole
      obtain ⟨name, captured⟩ := argument
      cases captured with
      | none =>
          have false : Argument.inserted ⟨name, none⟩ = some (groupText none) :=
            Replacement.expand_compile_of_plain dollar_not_mem_false _
          obtain rfl := Option.some.inj (false.symm.trans found)
          rw [substituteEach_free (by decide)] at made
          nomatch made
      | some text =>
          refine ⟨text, rfl, fun dollar => ?_⟩
          obtain ⟨pieces, compiled, rfl⟩ := Option.map_eq_some_iff.mp found
          have fewer := Replacement.dollars_expand_lt
            (List.forall_mem_singleton.mpr own.dollar_not_mem_around) compiled dollar
          have more := dollars_substituteEach_le literal
            (Replacement.expand [braces.around name] pieces)
          rw [made] at more
          exact absurd (more.trans_lt fewer) (lt_irrefl _)

include documented in
/-- Arguments that are substituted as if all at once are literal. -/
theorem literal_of_simultaneous (plain : ∀ argument ∈ arguments, PlainName argument.name)
    (free : ∀ argument ∈ arguments, braces.Free argument.text)
    (distinct : (arguments.map Argument.name).Nodup)
    (simultaneous : Simultaneous library arguments) : LiteralArguments arguments := by
  have compiled := isSome_inserted_of_simultaneous documented plain simultaneous
  have same (text : List Char) : substituteEach braces (arguments.map insertedBinding) text =
      substitute braces (arguments.map Argument.binding) text := by
    have once := simultaneous text
    rw [foldl_replaceNamed documented plain compiled] at once
    exact Option.some.inj once
  have literal : ∀ argument ∈ arguments, argument.IsLiteral :=
    isLiteral_of_simultaneous [] plain distinct compiled same
  rw [map_insertedBinding literal] at same
  refine ⟨plain, free, literal, pairwise_binding.mp ?_⟩
  refine (substituteEach_eq_iff (free_binding plain) ?_ ?_).mp same
  · rwa [names_binding]
  · exact List.forall_mem_map.mpr free

end Loop

section Template

variable {library : Library} {matchRule : List Char} {methods : Option (List String)}
  {request : Request} {captured : List (Option (List Char))}

theorem length_captures
    (matched : (new matchRule [] methods).captures library request = some captured) :
    (argNames 0 matchRule).length = captured.length := by
  unfold NamedArgsMatcher.captures at matched
  split at matched
  · have same := (Option.filter_eq_some_iff.mp matched).2
    rw [decide_eq_true_eq] at same
    exact (List.length_map _).symm.trans same
  · nomatch matched

theorem names_arguments (same : (argNames 0 matchRule).length = captured.length) :
    (arguments matchRule captured).map Argument.name = argNames 0 matchRule := by
  unfold arguments
  rw [List.map_map]
  exact List.map_fst_zip same.le

/-- The text of a template is made by the loop over the arguments. -/
theorem replacedTemplate_eq
    (matched : (new matchRule [] methods).captures library request = some captured)
    (template : List Char) :
    (new matchRule template methods).replacedTemplate library request =
      some ((arguments matchRule captured).foldl (replaceNamed library) (some template)) := by
  unfold NamedArgsMatcher.replacedTemplate
  change (((new matchRule [] methods).captures library request).map _) = _
  rw [matched]
  refine congrArg some ?_
  unfold replaceInTemplate arguments
  change (((argNames 0 matchRule).map braces.around).zip captured).foldl _ _ = _
  rw [List.zip_map_left, List.foldl_map, List.foldl_map]
  rfl

/-- For every template: the text that is made of it is the template with the arguments replaced at
once by the texts that were captured. -/
def RewritesLiterally (library : Library) (matchRule : List Char) (methods : Option (List String))
    (request : Request) (captured : List (Option (List Char))) : Prop :=
  ∀ template, (new matchRule template methods).replacedTemplate library request =
    some (some (substitute braces ((arguments matchRule captured).map Argument.binding) template))

/-- A match rewrites literally exactly when its arguments are substituted as if all at once. -/
theorem rewritesLiterally_iff_simultaneous
    (matched : (new matchRule [] methods).captures library request = some captured) :
    RewritesLiterally library matchRule methods request captured ↔
      Simultaneous library (arguments matchRule captured) := by
  unfold RewritesLiterally
  simp only [replacedTemplate_eq matched, Option.some.injEq]
  rfl

/-- A rule with different arguments rewrites every template literally when the arguments are
literal, and with plain names and without braces in the path only then. -/
theorem rewritesLiterally_of_literalArguments (library : Library) (documented : Documented library)
    (matchRule : List Char) (distinct : (argNames 0 matchRule).Nodup)
    (methods : Option (List String)) (request : Request) (captured : List (Option (List Char)))
    (matched : (new matchRule [] methods).captures library request = some captured) :
    (LiteralArguments (arguments matchRule captured) →
        RewritesLiterally library matchRule methods request captured) ∧
      ((∀ name ∈ argNames 0 matchRule, PlainName name) →
        (∀ argument ∈ arguments matchRule captured, braces.Free argument.text) →
          RewritesLiterally library matchRule methods request captured →
            LiteralArguments (arguments matchRule captured)) := by
  have names := names_arguments (length_captures matched)
  rw [← names] at distinct ⊢
  rw [rewritesLiterally_iff_simultaneous matched]
  refine ⟨simultaneous_of_literal documented distinct, fun plain free simultaneous => ?_⟩
  exact literal_of_simultaneous documented (List.forall_mem_map.mp plain) free distinct simultaneous

end Template

section Examples

theorem documented_plainLibrary : Documented plainLibrary := by
  intro name _ subject replacement
  have inside : (braces.around name).tail.dropLast = name := List.dropLast_concat
  change (Replacement.compile replacement).map (fun pieces =>
    substitute braces [⟨(braces.around name).tail.dropLast, _⟩] subject) = _
  rw [inside]

theorem rewritesLiterally_account :
    RewritesLiterally plainLibrary "/{account}".toList none accountRequest [some "12".toList] := by
  refine (rewritesLiterally_of_literalArguments plainLibrary documented_plainLibrary
    "/{account}".toList (by decide) none accountRequest [some "12".toList] (by decide)).1 ?_
  have account : arguments "/{account}".toList [some "12".toList] =
      [⟨"account".toList, some "12".toList⟩] := by rfl
  rw [account]
  exact
    { plain := List.forall_mem_singleton.mpr (by decide)
      free := List.forall_mem_singleton.mpr ⟨by decide, by decide⟩
      literal := List.forall_mem_singleton.mpr ⟨"12".toList, rfl, by decide⟩
      apart := List.pairwise_singleton _ _ }

def dollarRequest : Request := ⟨"GET", "/$1".toList⟩

/-- A captured `$1` is taken for a reference to a group, which the expression does not have. -/
theorem not_rewritesLiterally_dollar :
    (new "/{account}".toList [] none).captures plainLibrary dollarRequest =
        some [some "$1".toList] ∧
      ¬ RewritesLiterally plainLibrary "/{account}".toList none dollarRequest
        [some "$1".toList] := by
  refine ⟨by decide, fun rewrites => ?_⟩
  have literally := rewrites "/v2/{account}".toList
  have emptied : (new "/{account}".toList "/v2/{account}".toList none).replacedTemplate plainLibrary
      dollarRequest = some (some "/v2/".toList) := by decide
  rw [emptied] at literally
  exact absurd literally (by decide)

end Examples

end Apicast.RewriteUrlCaptures
