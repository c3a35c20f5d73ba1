import Apicast.Foundation.DelimitedString
import Apicast.Foundation.RegexSyntax
import Mathlib.Data.Bool.AllAny

/-!
# The patterns of mapping rules

The pattern of a mapping rule becomes a regular expression by substitutions: runs of slashes and
the query are removed, placeholders become groups, and dots are escaped. The other characters of a
path that are operators of regular expressions are not escaped.
-/

namespace Apicast.MappingRulePatterns

open Foundation RegexSyntax

/-- The substitution of `[[\/\/+]]` by a slash. -/
def collapseSlashes : List Char → List Char
  | [] => []
  | c :: rest =>
      if c = '/' ∧ rest.head? = some '/' then collapseSlashes rest else c :: collapseSlashes rest

/-- The removal of `[[\?.*]]`. A dot does not match a line break. -/
def removeQuery (inQuery : Bool) : List Char → List Char
  | [] => []
  | c :: rest =>
      if c = '\n' then c :: removeQuery false rest
      else if inQuery || c == '?' then removeQuery true rest
      else c :: removeQuery false rest

/-- `([\w\-.~%!$&'()*+,;=@:]+)` -/
def placeholderExpression : List Char :=
  ['(', '[', '\\', 'w', '\\', '-', '.', '~', '%', '!', '$', '&', '\'', '(', ')', '*', '+', ',', ';',
    '=', '@', ':', ']', '+', ')']

/-- How many characters stand before the first closing brace of a line. -/
def closingBrace : List Char → Option Nat
  | [] => none
  | c :: rest =>
      if c = '}' then some 0
      else if c = '\n' then none
      else (closingBrace rest).map (· + 1)

/-- How many characters `.+?\}` matches. -/
def placeholderLength : List Char → Option Nat
  | [] => none
  | c :: rest => if c = '\n' then none else (closingBrace rest).map (· + 2)

/-- The substitution of `[[\{.+?\}]]`, after some characters of the last match. -/
def replacePlaceholders : (matched : Nat) → List Char → List Char
  | _, [] => []
  | matched + 1, _ :: rest => replacePlaceholders matched rest
  | 0, c :: rest =>
      if c = '{' then
        match placeholderLength rest with
        | some length => placeholderExpression ++ replacePlaceholders length rest
        | none => c :: replacePlaceholders 0 rest
      else c :: replacePlaceholders 0 rest

/-- The substitution of `[[\.]]` by `[[\.]]`, which is not an expression there. -/
def escapeDots (pattern : List Char) : List Char :=
  pattern.flatMap fun c => if c = '.' then ['\\', '.'] else [c]

def regexpify (pattern : List Char) : List Char :=
  escapeDots (replacePlaceholders 0 (removeQuery false (collapseSlashes pattern)))

/-- `regexpified_pattern` -/
def regexpifiedPattern (pattern : List Char) : List Char := '^' :: regexpify pattern

def matchesUri (rulePattern uri : List Char) : Bool := reMatch uri rulePattern

/-! ## What a pattern means -/

inductive Part
  | literal (character : Char)
  | placeholder (name : List Char)

def Part.text : Part → List Char
  | .literal c => [c]
  | .placeholder name => '{' :: name ++ ['}']

/-- The characters of the path of a URL. -/
def isPathCharacter (c : Char) : Bool :=
  c.isAlphanum || ['-', '.', '_', '~', '%', '!', '$', '&', '\'', '(', ')', '*', '+', ',', ';', '=',
    ':', '@', '/'].contains c

/-- A pattern of characters of paths and of placeholders, possibly with a `$` at its end. -/
structure RulePattern where
  parts : List Part
  anchored : Bool
  literals : ∀ c, .literal c ∈ parts → isPathCharacter c = true ∧ c ≠ '$'
  names : ∀ name, .placeholder name ∈ parts →
    name ≠ [] ∧ ∀ c ∈ name, c ≠ '}' ∧ c ≠ '?' ∧ c ≠ '\n'
  slashes : ¬ ['/', '/'] <:+: parts.flatMap Part.text

namespace RulePattern

def ending (pattern : RulePattern) : List Char := if pattern.anchored then ['$'] else []

def text (pattern : RulePattern) : List Char := pattern.parts.flatMap Part.text ++ pattern.ending

end RulePattern

/-- The characters that a placeholder stands for. -/
def isPlaceholderCharacter (c : Char) : Bool :=
  isWord c || ['-', '.', '~', '%', '!', '$', '&', '\'', '(', ')', '*', '+', ',', ';', '=', '@',
    ':'].contains c

/-- A literal stands for itself, a placeholder for any of its characters. -/
def Part.StandsFor : Part → List Char → Prop
  | .literal c, text => text = [c]
  | .placeholder _, text => text ≠ [] ∧ ∀ c ∈ text, isPlaceholderCharacter c = true

/-- The path, or a prefix of it if the pattern does not end with `$`, splits into what the parts
of the pattern stand for. -/
def RulePattern.Matches (pattern : RulePattern) (path : List Char) : Prop :=
  ∃ texts, List.Forall₂ Part.StandsFor pattern.parts texts ∧
    if pattern.anchored then texts.flatten = path else texts.flatten <+: path

/-- The characters that a URI is left with when it is escaped. -/
def isEscapedCharacter (c : Char) : Bool :=
  ' ' < c && c < '\x7f' && c != '#' && c != '?'

def Escaped (path : List Char) : Prop := ∀ c ∈ path, isEscapedCharacter c = true

/-! ## The substitutions -/

/-- The expression of a part. -/
def Part.expression : Part → List Char
  | .literal c => if c = '.' then ['\\', '.'] else [c]
  | .placeholder _ => escapeDots placeholderExpression

section Substitutions

/-- Without two slashes in a row there is nothing to remove. -/
theorem collapseSlashes_eq {pattern : List Char} (single : ¬ ['/', '/'] <:+: pattern) :
    collapseSlashes pattern = pattern := by
  induction pattern with
  | nil => rfl
  | cons c rest ih =>
      have others : ¬ ['/', '/'] <:+: rest := fun inside =>
        single (inside.trans (List.suffix_cons c rest).isInfix)
      have alone : ¬ (c = '/' ∧ rest.head? = some '/') := by
        rintro ⟨rfl, next⟩
        obtain ⟨more, rfl⟩ := List.head?_eq_some_iff.mp next
        exact single ⟨[], more, rfl⟩
      unfold collapseSlashes
      rw [if_neg alone, ih others]

theorem removeQuery_eq {pattern : List Char} (absent : '?' ∉ pattern) :
    removeQuery false pattern = pattern := by
  induction pattern with
  | nil => rfl
  | cons c rest ih =>
      obtain ⟨other, others⟩ := not_or.mp (mt List.mem_cons.mpr absent)
      have different : ¬ (false || c == '?') = true := by
        rw [Bool.false_or, beq_iff_eq]
        exact Ne.symm other
      unfold removeQuery
      rw [if_neg different, ih others, ite_self]

/-- A query stays apart from the path while slashes are removed. -/
theorem collapseSlashes_append (path query : List Char) :
    collapseSlashes (path ++ '?' :: query) =
      collapseSlashes path ++ '?' :: collapseSlashes query := by
  induction path with
  | nil => exact if_neg fun both => absurd both.1 (by decide)
  | cons c path ih =>
      have next : (path ++ '?' :: query).head? = some '/' ↔ path.head? = some '/' := by
        cases path with
        | nil => exact iff_of_false (by simp) (by simp)
        | cons _ _ => exact Iff.rfl
      by_cases doubled : c = '/' ∧ path.head? = some '/'
      · have alone : collapseSlashes (c :: path) = collapseSlashes path := if_pos doubled
        have followed : collapseSlashes (c :: (path ++ '?' :: query)) =
            collapseSlashes (path ++ '?' :: query) := if_pos ⟨doubled.1, next.mpr doubled.2⟩
        rw [List.cons_append, followed, alone, ih]
      · have alone : collapseSlashes (c :: path) = c :: collapseSlashes path := if_neg doubled
        have followed : collapseSlashes (c :: (path ++ '?' :: query)) =
            c :: collapseSlashes (path ++ '?' :: query) :=
          if_neg fun both => doubled ⟨both.1, next.mp both.2⟩
        rw [List.cons_append, followed, alone, ih, List.cons_append]

theorem mem_of_mem_collapseSlashes {c : Char} {pattern : List Char}
    (member : c ∈ collapseSlashes pattern) : c ∈ pattern := by
  induction pattern with
  | nil => exact member
  | cons d rest ih =>
      unfold collapseSlashes at member
      split at member
      · exact List.mem_cons_of_mem d (ih member)
      · rcases List.mem_cons.mp member with rfl | later
        · exact List.mem_cons_self
        · exact List.mem_cons_of_mem d (ih later)

/-- The rest of a query is removed up to the end of the line. -/
theorem removeQuery_true {query : List Char} (unbroken : '\n' ∉ query) :
    removeQuery true query = [] := by
  induction query with
  | nil => rfl
  | cons c rest ih =>
      obtain ⟨other, others⟩ := not_or.mp (mt List.mem_cons.mpr unbroken)
      unfold removeQuery
      rw [if_neg (Ne.symm other), Bool.true_or, if_pos rfl, ih others]

/-- The query is removed with its question mark. -/
theorem removeQuery_append {path query : List Char} (absent : '?' ∉ path)
    (unbroken : '\n' ∉ query) : removeQuery false (path ++ '?' :: query) = path := by
  induction path with
  | nil => exact removeQuery_true unbroken
  | cons c path ih =>
      obtain ⟨other, others⟩ := not_or.mp (mt List.mem_cons.mpr absent)
      have different : ¬ (false || c == '?') = true := by
        rw [Bool.false_or, beq_iff_eq]
        exact Ne.symm other
      rw [List.cons_append]
      unfold removeQuery
      rw [if_neg different, ih others, ite_self]

theorem closingBrace_append {name : List Char} (legal : ∀ c ∈ name, c ≠ '}' ∧ c ≠ '?' ∧ c ≠ '\n')
    (rest : List Char) : closingBrace (name ++ '}' :: rest) = some name.length := by
  induction name with
  | nil => rfl
  | cons c name ih =>
      obtain ⟨own, others⟩ := List.forall_mem_cons.mp legal
      rw [List.cons_append]
      unfold closingBrace
      rw [if_neg own.1, if_neg own.2.2, ih others]
      rfl

/-- The characters of a match are passed over. -/
theorem replacePlaceholders_append (matched rest : List Char) :
    replacePlaceholders matched.length (matched ++ rest) = replacePlaceholders 0 rest := by
  induction matched with
  | nil => rfl
  | cons c matched ih => exact ih

theorem replacePlaceholders_literal {c : Char} (other : c ≠ '{') (rest : List Char) :
    replacePlaceholders 0 (c :: rest) = c :: replacePlaceholders 0 rest :=
  if_neg other

/-- A placeholder is replaced as a whole, and nothing after it. -/
theorem replacePlaceholders_placeholder {name : List Char} (nonempty : name ≠ [])
    (legal : ∀ c ∈ name, c ≠ '}' ∧ c ≠ '?' ∧ c ≠ '\n') (rest : List Char) :
    replacePlaceholders 0 ('{' :: name ++ '}' :: rest) =
      placeholderExpression ++ replacePlaceholders 0 rest := by
  obtain ⟨c, others, rfl⟩ := List.exists_cons_of_ne_nil nonempty
  obtain ⟨own, inside⟩ := List.forall_mem_cons.mp legal
  have length : placeholderLength (c :: others ++ '}' :: rest) =
      some (c :: others ++ ['}']).length := by
    rw [List.length_append]
    refine (if_neg own.2.2).trans ?_
    change (closingBrace (others ++ '}' :: rest)).map _ = _
    rw [closingBrace_append inside]
    rfl
  change (match placeholderLength (c :: others ++ '}' :: rest) with | some _ => _ | none => _) = _
  rw [length]
  dsimp only
  rw [← replacePlaceholders_append (c :: others ++ ['}']) rest, List.append_assoc]
  rfl

variable (pattern : RulePattern)

/-- The placeholders of a pattern are replaced and its dots are escaped, part by part. -/
theorem replacePlaceholders_text {parts : List Part}
    (literals : ∀ c, .literal c ∈ parts → isPathCharacter c = true ∧ c ≠ '$')
    (names : ∀ name, .placeholder name ∈ parts →
      name ≠ [] ∧ ∀ c ∈ name, c ≠ '}' ∧ c ≠ '?' ∧ c ≠ '\n') (rest : List Char) :
    escapeDots (replacePlaceholders 0 (parts.flatMap Part.text ++ rest)) =
      parts.flatMap Part.expression ++ escapeDots (replacePlaceholders 0 rest) := by
  induction parts with
  | nil => rfl
  | cons part parts ih =>
      have later := ih (fun c member => literals c (List.mem_cons_of_mem _ member))
        fun name member => names name (List.mem_cons_of_mem _ member)
      rw [List.flatMap_cons, List.flatMap_cons, List.append_assoc, List.append_assoc, ← later]
      cases part with
      | literal c =>
          have other : c ≠ '{' := by
            rintro rfl
            exact absurd (literals '{' List.mem_cons_self).1 (by decide)
          exact congrArg escapeDots (replacePlaceholders_literal other _)
      | placeholder name =>
          obtain ⟨nonempty, legal⟩ := names name List.mem_cons_self
          have replaced := replacePlaceholders_placeholder nonempty legal
            (parts.flatMap Part.text ++ rest)
          change escapeDots (replacePlaceholders 0 ('{' :: name ++ ['}'] ++ _)) = _
          rw [List.append_assoc, List.singleton_append, replaced]
          exact List.flatMap_append

theorem questionMark_not_mem_text : '?' ∉ pattern.text := by
  intro member
  obtain inside | last := List.mem_append.mp member
  · obtain ⟨part, among, own⟩ := List.mem_flatMap.mp inside
    cases part with
    | literal c =>
        obtain rfl := List.mem_singleton.mp own
        exact absurd (pattern.literals '?' among).1 (by decide)
    | placeholder name =>
        change '?' ∈ '{' :: (name ++ ['}']) at own
        rw [List.mem_cons, List.mem_append, List.mem_singleton] at own
        obtain brace | named | brace := own
        · exact absurd brace (by decide)
        · exact ((pattern.names name among).2 '?' named).2.1 rfl
        · exact absurd brace (by decide)
  · unfold RulePattern.ending at last
    split at last
    · exact absurd (List.mem_singleton.mp last) (by decide)
    · nomatch last

theorem slashes_text : ¬ ['/', '/'] <:+: pattern.text := by
  unfold RulePattern.text RulePattern.ending
  split
  · rw [Delimited.infix_append_cons (by decide)]
    rintro (inside | nothing)
    · exact pattern.slashes inside
    · nomatch List.eq_nil_of_infix_nil nothing
  · rw [List.append_nil]
    exact pattern.slashes

/-- The expression of a pattern is the one of its parts. -/
theorem regexpify_text :
    regexpify pattern.text = pattern.parts.flatMap Part.expression ++ pattern.ending := by
  unfold regexpify
  rw [collapseSlashes_eq (slashes_text pattern),
    removeQuery_eq (questionMark_not_mem_text pattern), RulePattern.text,
    replacePlaceholders_text pattern.literals pattern.names]
  unfold RulePattern.ending
  split <;> rfl

/-- A pattern has the same expression with a query string as without it. -/
theorem regexpify_query {query : List Char} (unbroken : '\n' ∉ query) :
    regexpify (pattern.text ++ '?' :: query) = regexpify pattern.text := by
  unfold regexpify
  rw [collapseSlashes_append, collapseSlashes_eq (slashes_text pattern),
    removeQuery_append (questionMark_not_mem_text pattern)
      (mt mem_of_mem_collapseSlashes unbroken),
    removeQuery_eq (questionMark_not_mem_text pattern)]

end Substitutions

/-! ## Patterns without operators -/

/-- The characters of paths that are operators, and that are not escaped. -/
def unescaped : List Char := ['+', '*', '(', ')']

/-- What the expression of a part compiles to. -/
def Part.regex : Part → Regex
  | .literal c => .oneOf (· == c)
  | .placeholder _ => Regex.sequence [.some (.oneOf isPlaceholderCharacter)]

section Plain

/-- Of the operators of regular expressions, a path can only have these. -/
theorem special_pathCharacter : ∀ c ∈ special, isPathCharacter c = true →
    c = '$' ∨ c = '.' ∨ c ∈ unescaped :=
  List.all_iff_forall_prop.mp (by decide)

/-- The expression of a literal compiles to the literal, if it is not an operator. -/
theorem foldlM_literal {self : Compiler} (normal : self.mode = .normal) {c : Char}
    (legal : isPathCharacter c = true) (anchor : c ≠ '$') (plain : c ∉ unescaped) :
    (Part.expression (.literal c)).foldlM Compiler.step self =
      some (self.push (.oneOf (· == c)) .bare) := by
  obtain ⟨mode, current, enclosing⟩ := self
  subst normal
  unfold Part.expression
  dsimp only
  split
  · rename_i dot
    subst dot
    rfl
  · rename_i other
    have literal : c ∉ special := fun member =>
      (special_pathCharacter c member legal).elim anchor fun rest => rest.elim other plain
    exact congrArg (Option.bind · some) (Compiler.stepNormal_literal _ literal)

/-- The expression of a placeholder compiles to a group of its characters. -/
theorem foldlM_placeholder {self : Compiler} (normal : self.mode = .normal) (name : List Char) :
    (Part.expression (.placeholder name)).foldlM Compiler.step self =
      some (self.push (Part.regex (.placeholder name)) .bare) := by
  obtain ⟨mode, current, enclosing⟩ := self
  subst normal
  rfl

/-- The expressions of the parts compile to the sequence of what they mean. -/
theorem foldlM_parts {parts : List Part}
    (literals : ∀ c, .literal c ∈ parts → isPathCharacter c = true ∧ c ≠ '$')
    (plain : ∀ c, .literal c ∈ parts → c ∉ unescaped) {self : Compiler}
    (normal : self.mode = .normal) :
    (parts.flatMap Part.expression).foldlM Compiler.step self =
      some { self with current :=
        (parts.map fun part => (⟨part.regex, .bare⟩ : Item)).reverse ++ self.current } := by
  induction parts generalizing self with
  | nil => rfl
  | cons part parts ih =>
      have first : part.expression.foldlM Compiler.step self =
          some (self.push part.regex .bare) := by
        cases part with
        | literal c =>
            obtain ⟨legal, anchor⟩ := literals c List.mem_cons_self
            exact foldlM_literal normal legal anchor (plain c List.mem_cons_self)
        | placeholder name => exact foldlM_placeholder normal name
      have rest := @ih (fun c member => literals c (List.mem_cons_of_mem _ member))
        (fun c member => plain c (List.mem_cons_of_mem _ member)) (self.push part.regex .bare) rfl
      rw [List.flatMap_cons, List.foldlM_append, first]
      refine rest.trans ?_
      rw [List.map_cons, List.reverse_cons, List.append_assoc, normal]
      rfl

/-- A pattern without operators compiles to what its parts compile to. -/
theorem compile_regexpifiedPattern (pattern : RulePattern)
    (plain : ∀ c, .literal c ∈ pattern.parts → c ∉ unescaped) :
    compile (regexpifiedPattern pattern.text) =
      some (Regex.sequence (.startOfSubject :: pattern.parts.map Part.regex ++
        if pattern.anchored then [.endOfSubject] else [])) := by
  have parts := foldlM_parts pattern.literals plain
    (rfl : (Compiler.start.push .startOfSubject .closed).mode = .normal)
  have regexes : (pattern.parts.map fun part => (⟨part.regex, .bare⟩ : Item)).map Item.regex =
      pattern.parts.map Part.regex := List.map_map ..
  unfold compile regexpifiedPattern
  rw [regexpify_text, List.foldlM_cons]
  change ((pattern.parts.flatMap Part.expression ++ pattern.ending).foldlM Compiler.step
    (Compiler.start.push .startOfSubject .closed)).bind Compiler.finish = _
  rw [List.foldlM_append, parts]
  unfold RulePattern.ending
  split
  · change some (Regex.sequence (List.map Item.regex (List.reverse (_ :: _)))) = _
    rw [List.reverse_cons, List.reverse_append, List.reverse_reverse, List.map_append,
      List.map_append, regexes]
    rfl
  · change some (Regex.sequence (List.map Item.regex (List.reverse _))) = _
    rw [List.reverse_append, List.reverse_reverse, List.map_append, regexes, List.append_nil]
    rfl

/-- What a part stands for. -/
def Part.language (part : Part) : Language Char := { text | part.StandsFor text }

/-- What a part compiles to reads the texts of its language. -/
theorem reads_regex (length : Nat) (part : Part) :
    Regex.Reads (Regex.run length part.regex) part.language := by
  cases part with
  | literal c =>
      have language : Regex.characters (· == c) = (Part.literal c).language := by
        ext text
        constructor
        · rintro ⟨d, same, rfl⟩
          exact congrArg (fun d => [d]) (beq_iff_eq.mp same)
        · intro own
          exact ⟨c, beq_self_eq_true c, own⟩
      exact language ▸ Regex.reads_oneOf (· == c)
  | placeholder name =>
      have language : [(Part.placeholder name).language].prod = (Part.placeholder name).language :=
        List.prod_singleton
      rw [← language]
      exact Regex.reads_sequence (.cons (Regex.reads_some_oneOf isPlaceholderCharacter) .nil)

/-- A sequence of parts reads the texts of the languages of the parts, one after the other. -/
theorem reads_parts (length : Nat) (parts : List Part) :
    Regex.Reads (Regex.run length (Regex.sequence (parts.map Part.regex)))
      (parts.map Part.language).prod := by
  apply Regex.reads_sequence
  rw [List.forall₂_map_left_iff, List.forall₂_map_right_iff, List.forall₂_same]
  exact fun part _ => reads_regex length part

/-- These are the texts that split into what the parts stand for. -/
theorem mem_prod_language {parts : List Part} {text : List Char} :
    text ∈ (parts.map Part.language).prod ↔
      ∃ texts, List.Forall₂ Part.StandsFor parts texts ∧ texts.flatten = text := by
  rw [Regex.mem_prod_iff]
  have flipped (texts : List (List Char)) :
      List.Forall₂ (· ∈ ·) texts (parts.map Part.language) ↔
        List.Forall₂ Part.StandsFor parts texts := by
    rw [List.forall₂_map_right_iff]
    exact ⟨List.Forall₂.flip, List.Forall₂.flip⟩
  exact exists_congr fun texts => and_congr_left fun _ => flipped texts

/-- A pattern without operators matches an escaped path as its parts do. -/
theorem matchesUri_iff_of_plain (pattern : RulePattern)
    (plain : ∀ c, .literal c ∈ pattern.parts → c ∉ unescaped) {path : List Char}
    (escaped : Escaped path) :
    matchesUri (regexpifiedPattern pattern.text) path = true ↔ pattern.Matches path := by
  have reads := reads_parts path.length pattern.parts
  unfold matchesUri reMatch
  rw [compile_regexpifiedPattern pattern plain]
  change Regex.search _ path = true ↔ _
  unfold RulePattern.Matches
  cases pattern.anchored with
  | false =>
      rw [if_neg Bool.false_ne_true, List.append_nil, Regex.search_sequence_iff reads]
      constructor
      · rintro ⟨text, among, start⟩
        obtain ⟨texts, each, rfl⟩ := mem_prod_language.mp among
        exact ⟨texts, each, start⟩
      · rintro ⟨texts, each, start⟩
        exact ⟨texts.flatten, mem_prod_language.mpr ⟨texts, each, rfl⟩, start⟩
  | true =>
      have unbroken : '\n' ∉ path := fun member => absurd (escaped '\n' member) (by decide)
      rw [if_pos rfl, Regex.search_sequence_endOfSubject_iff unbroken reads]
      exact mem_prod_language

end Plain

/-! ## Patterns with operators -/

/-- The unescaped operators are replaced by a character that no pattern has as a literal. -/
def mask (c : Char) : Char := if c ∈ unescaped then '$' else c

section Masked

/-- A literal that is not an operator does not tell a character from its mask. -/
theorem mask_beq {c : Char} (literal : c ∉ unescaped) (anchor : c ≠ '$') (d : Char) :
    (mask d == c) = (d == c) := by
  unfold mask
  split
  · rename_i operator
    rw [beq_eq_false_iff_ne.mpr (Ne.symm anchor),
      beq_eq_false_iff_ne.mpr (ne_of_mem_of_not_mem operator literal)]
  · rfl

theorem isPlaceholderCharacter_mask (c : Char) :
    isPlaceholderCharacter (mask c) = isPlaceholderCharacter c := by
  have operators : ∀ c ∈ unescaped, isPlaceholderCharacter c = isPlaceholderCharacter '$' :=
    List.all_iff_forall_prop.mp (by decide)
  unfold mask
  split
  · rename_i operator
    exact (operators c operator).symm
  · rfl

theorem mask_eq_newline_iff (c : Char) : mask c = '\n' ↔ c = '\n' := by
  have same := mask_beq (by decide : '\n' ∉ unescaped) (by decide) c
  rw [← beq_iff_eq, same, beq_iff_eq]

/-- The compiler stays blind to the mask over a literal, also where it is an operator. -/
theorem blind_literal {self next : Compiler} (blind : self.Blind mask)
    (outside : self.mode.Outside) {c : Char} (legal : isPathCharacter c = true) (anchor : c ≠ '$')
    (found : (Part.expression (.literal c)).foldlM Compiler.step self = some next) :
    next.Blind mask ∧ next.mode.Outside := by
  have escape : c ≠ '\\' := by
    rintro rfl
    exact absurd legal (by decide)
  have set : c ≠ '[' := by
    rintro rfl
    exact absurd legal (by decide)
  unfold Part.expression at found
  dsimp only at found
  split at found
  · exact blind.step_escape outside (by decide) (by decide) (mask_beq (by decide) (by decide)) found
  · obtain ⟨last, read, ends⟩ := Option.bind_eq_some_iff.mp found
    obtain rfl := Option.some.inj ends
    refine blind.step outside escape set ?_ read
    by_cases operator : c ∈ unescaped
    · have operators : ∀ c ∈ unescaped, c ∈ operators := List.all_iff_forall_prop.mp (by decide)
      exact .inl (operators c operator)
    · exact .inr (mask_beq operator anchor)

/-- It stays blind over a placeholder. -/
theorem blind_placeholder {self next : Compiler} (blind : self.Blind mask)
    (outside : self.mode.Outside) {name : List Char}
    (found : (Part.expression (.placeholder name)).foldlM Compiler.step self = some next) :
    next.Blind mask ∧ next.mode.Outside := by
  have group : (Part.regex (.placeholder name)).Blind mask :=
    ⟨⟨isPlaceholderCharacter_mask, isPlaceholderCharacter_mask⟩, trivial⟩
  obtain ⟨mode, current, enclosing⟩ := self
  cases mode with
  | normal =>
      rw [foldlM_placeholder rfl] at found
      obtain rfl := Option.some.inj found
      exact ⟨blind.push _ group .bare, trivial⟩
  | opened =>
      have opened : (Part.expression (.placeholder name)).foldlM Compiler.step
            { mode := .opened, current, enclosing } =
          (Part.expression (.placeholder name)).foldlM Compiler.step
            (Compiler.openGroup { mode := .opened, current, enclosing }) := rfl
      rw [opened, foldlM_placeholder rfl] at found
      obtain rfl := Option.some.inj found
      exact ⟨blind.openGroup.push _ group .bare, trivial⟩
  | openedStar => nomatch found
  | verb text =>
      -- The verb ends in the set of the placeholder, before a `*` that has nothing to repeat.
      have parts : Part.expression (.placeholder name) =
          ['(', '[', '\\', 'w', '\\', '-', '\\', '.', '~', '%', '!', '$', '&', '\'', '('] ++
            ')' :: '*' :: ['+', ',', ';', '=', '@', ':', ']', '+', ')'] := rfl
      rw [parts, List.foldlM_append, Compiler.foldlM_verb rfl (by decide)] at found
      have failed := found.symm.trans (Compiler.foldlM_verb_star rfl _)
      nomatch failed
  | escape => exact outside.elim
  | set word characters => exact outside.elim
  | setEscape word characters => exact outside.elim

theorem blind_parts {parts : List Part}
    (literals : ∀ c, .literal c ∈ parts → isPathCharacter c = true ∧ c ≠ '$')
    {self next : Compiler} (blind : self.Blind mask) (outside : self.mode.Outside)
    (found : (parts.flatMap Part.expression).foldlM Compiler.step self = some next) :
    next.Blind mask ∧ next.mode.Outside := by
  induction parts generalizing self with
  | nil =>
      obtain rfl := Option.some.inj found
      exact ⟨blind, outside⟩
  | cons part parts ih =>
      rw [List.flatMap_cons, List.foldlM_append] at found
      obtain ⟨middle, first, rest⟩ := Option.bind_eq_some_iff.mp found
      have kept : middle.Blind mask ∧ middle.mode.Outside := by
        cases part with
        | literal c =>
            obtain ⟨legal, anchor⟩ := literals c List.mem_cons_self
            exact blind_literal blind outside legal anchor first
        | placeholder name => exact blind_placeholder blind outside first
      exact ih (fun c member => literals c (List.mem_cons_of_mem _ member)) kept.1 kept.2 rest

/-- The expression of a pattern does not tell an operator from a `$`. -/
theorem blind_compile (pattern : RulePattern) {regex : Regex}
    (compiled : compile (regexpifiedPattern pattern.text) = some regex) : regex.Blind mask := by
  obtain ⟨last, read, finished⟩ := Option.bind_eq_some_iff.mp compiled
  unfold regexpifiedPattern at read
  rw [regexpify_text] at read
  change (pattern.parts.flatMap Part.expression ++ pattern.ending).foldlM Compiler.step
    (Compiler.start.push .startOfSubject .closed) = some last at read
  rw [List.foldlM_append] at read
  obtain ⟨middle, parts, ends⟩ := Option.bind_eq_some_iff.mp read
  have start : Compiler.start.Blind mask :=
    ⟨List.forall_mem_nil _, List.forall_mem_nil _⟩
  obtain ⟨blind, outside⟩ := blind_parts pattern.literals
    (start.push .startOfSubject trivial .closed) trivial parts
  unfold RulePattern.ending at ends
  split at ends
  · obtain ⟨final, anchor, same⟩ := Option.bind_eq_some_iff.mp ends
    obtain rfl := Option.some.inj same
    exact (blind.step outside (by decide) (by decide) (.inl (by decide)) anchor).1.finish finished
  · obtain rfl := Option.some.inj ends
    exact blind.finish finished

/-- A pattern matches a path exactly when it matches the masked path. -/
theorem matchesUri_mask (pattern : RulePattern) (path : List Char) :
    matchesUri (regexpifiedPattern pattern.text) (path.map mask) =
      matchesUri (regexpifiedPattern pattern.text) path := by
  unfold matchesUri reMatch
  cases compiled : compile (regexpifiedPattern pattern.text) with
  | none => rfl
  | some regex => exact Regex.search_map mask_eq_newline_iff (blind_compile pattern compiled) path

end Masked

/-- A path that the parts stand for, with one character for each of them. -/
def Part.sample : Part → List Char
  | .literal c => [c]
  | .placeholder _ => ['a']

section Direct

variable (pattern : RulePattern)

/-- A pattern means its own text, with a letter for each placeholder. -/
theorem matches_sample : pattern.Matches (pattern.parts.flatMap Part.sample) := by
  refine ⟨pattern.parts.map Part.sample, ?_, ?_⟩
  · rw [List.forall₂_map_right_iff, List.forall₂_same]
    intro part _
    cases part with
    | literal c => rfl
    | placeholder name =>
        exact ⟨List.cons_ne_nil _ _, List.forall_mem_singleton.mpr (by decide)⟩
  · split
    · rfl
    · exact List.prefix_rfl

theorem printable_of_isAlphanum {c : Char} (letter : c.isAlphanum = true) :
    ' ' < c ∧ c < '\x7f' := by
  unfold Char.isAlphanum Char.isAlpha Char.isUpper Char.isLower Char.isDigit at letter
  simp only [Bool.or_eq_true, Bool.and_eq_true, decide_eq_true_eq, UInt32.le_iff_toNat_le,
    ge_iff_le] at letter
  have ends : ' '.val.toNat = 32 ∧ '\x7f'.val.toNat = 127 := by decide
  have letters : ('A'.val.toNat = 65 ∧ 'Z'.val.toNat = 90) ∧
      ('a'.val.toNat = 97 ∧ 'z'.val.toNat = 122) ∧ '0'.val.toNat = 48 ∧ '9'.val.toNat = 57 := by
    decide
  rw [Char.lt_def, Char.lt_def, UInt32.lt_iff_toNat_lt, UInt32.lt_iff_toNat_lt]
  omega

/-- Escaping leaves the characters of paths as they are. -/
theorem isEscapedCharacter_of_isPathCharacter {c : Char} (legal : isPathCharacter c = true) :
    isEscapedCharacter c = true := by
  obtain letter | listed := Bool.or_eq_true_iff.mp legal
  · have (other : Char) (mark : other.isAlphanum = false) : (c != other) = true := by
      rw [bne_iff_ne]
      rintro rfl
      exact absurd letter (Bool.eq_false_iff.mp mark)
    obtain ⟨above, below⟩ := printable_of_isAlphanum letter
    unfold isEscapedCharacter
    rw [decide_eq_true above, decide_eq_true below, this '#' rfl, this '?' rfl]
    rfl
  · have listed_escaped : ∀ c ∈ ['-', '.', '_', '~', '%', '!', '$', '&', '\'', '(', ')', '*', '+',
        ',', ';', '=', ':', '@', '/'], isEscapedCharacter c = true :=
      List.all_eq_true.mp (by decide)
    exact listed_escaped c (List.contains_iff_mem.mp listed)

theorem escaped_sample : Escaped (pattern.parts.flatMap Part.sample) := by
  intro c member
  obtain ⟨part, among, own⟩ := List.mem_flatMap.mp member
  cases part with
  | literal d =>
      obtain rfl := List.mem_singleton.mp own
      exact isEscapedCharacter_of_isPathCharacter (pattern.literals c among).1
  | placeholder name =>
      obtain rfl := List.mem_singleton.mp own
      decide

theorem escaped_mask {path : List Char} (escaped : Escaped path) : Escaped (path.map mask) := by
  intro c member
  obtain ⟨d, own, rfl⟩ := List.mem_map.mp member
  unfold mask
  split
  · decide
  · exact escaped d own

theorem mask_not_mem_unescaped (c : Char) : mask c ∉ unescaped := by
  unfold mask
  split
  · decide
  · assumption

/-- A text that the parts stand for has the literals in it. -/
theorem mem_flatten_of_literal {parts : List Part} {texts : List (List Char)} {c : Char}
    (each : List.Forall₂ Part.StandsFor parts texts) (literal : .literal c ∈ parts) :
    c ∈ texts.flatten := by
  induction each with
  | nil => nomatch literal
  | cons own _ ih =>
      rw [List.flatten_cons, List.mem_append]
      obtain rfl | later := List.mem_cons.mp literal
      · rw [show _ = [c] from own]
        exact .inl List.mem_cons_self
      · exact .inr (ih later)

/-- A pattern that has an operator as a literal does not mean any masked path. -/
theorem not_matches_mask {c : Char} (operator : c ∈ unescaped)
    (literal : .literal c ∈ pattern.parts) (path : List Char) :
    ¬ pattern.Matches (path.map mask) := by
  rintro ⟨texts, each, whole⟩
  have inside : texts.flatten ⊆ path.map mask := by
    split at whole
    · rw [whole]
      exact List.Subset.refl _
    · exact whole.subset
  obtain ⟨d, _, rfl⟩ := List.mem_map.mp (inside (mem_flatten_of_literal each literal))
  exact mask_not_mem_unescaped d operator

/-- Mapping rule matching has its direct meaning exactly when no operator is a literal of the
pattern. -/
theorem matchesUri_iff_matches_iff :
    (∀ path, Escaped path →
      (matchesUri (regexpifiedPattern pattern.text) path = true ↔ pattern.Matches path)) ↔
      ∀ c, .literal c ∈ pattern.parts → c ∉ unescaped := by
  constructor
  · intro direct c literal operator
    by_cases found : ∃ path, Escaped path ∧
        matchesUri (regexpifiedPattern pattern.text) path = true
    · obtain ⟨path, escaped, matched⟩ := found
      rw [← matchesUri_mask] at matched
      exact not_matches_mask pattern operator literal path
        ((direct _ (escaped_mask escaped)).mp matched)
    · have matched := (direct _ (escaped_sample pattern)).mpr (matches_sample pattern)
      exact found ⟨_, escaped_sample pattern, matched⟩
  · intro plain path escaped
    exact matchesUri_iff_of_plain pattern plain escaped

end Direct

/-- `/a+b` -/
def plusPattern : RulePattern where
  parts := ['/', 'a', '+', 'b'].map .literal
  anchored := false
  literals := by simp; decide
  names := by simp
  slashes := by decide

/-- The pattern `/a+b` does not match its own text. -/
theorem not_matchesUri_iff_matches_plus :
    ¬ ∀ path, Escaped path →
      (matchesUri (regexpifiedPattern plusPattern.text) path = true ↔
        plusPattern.Matches path) := by
  intro direct
  have matched := (direct _ (escaped_sample plusPattern)).mpr (matches_sample plusPattern)
  exact absurd matched (by decide)

end Apicast.MappingRulePatterns
