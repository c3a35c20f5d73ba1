import Apicast.Foundation.Regex

/-!
# The syntax of regular expressions

The fragment of literal characters, escaped punctuation, sets of listed characters and `\w`, groups,
`*` and `+` with their possessive forms, `^`, `$` and backtracking control verbs. An expression that
is not well-formed does not compile. An expression with another construct (a quantifier with `?` or
braces, an alternative, an unescaped dot, another escape, a range or a complement) is outside the
fragment.
-/

namespace Foundation

namespace RegexSyntax

/-- What `\w` matches. -/
def isWord (c : Char) : Bool := c.isAlphanum || c == '_'

/-- What a set of listed characters matches, possibly with `\w` in it. -/
def inSet (word : Bool) (characters : List Char) (c : Char) : Bool :=
  word && isWord c || characters.contains c

/-- The text of a verb is its name, or a name and an argument. -/
def verbOfText (text : List Char) : Option Verb :=
  let name := String.ofList (text.takeWhile (· ≠ ':'))
  let argument := (text.dropWhile (· ≠ ':')).tail
  if argument = [] then
    match name with
    | "ACCEPT" => some .accept
    | "F" | "FAIL" => some .fail
    -- Without an alternative and with one place to start at, they are the same.
    | "COMMIT" | "PRUNE" | "SKIP" | "THEN" => some .commit
    | _ => none
  else
    match name with
    | "" | "MARK" => some (.mark argument)
    | "PRUNE" | "THEN" => some .commit
    | "SKIP" => some (.skipTo argument)
    | _ => none

/-- What a quantifier after an item makes of it. -/
inductive Quantifiable
  | bare
  | repeated
  | closed

structure Item where
  regex : Regex
  quantifiable : Quantifiable

/-- What was read of a construct. -/
inductive Mode
  | normal
  /-- After `(`. -/
  | opened
  /-- After `(*`. -/
  | openedStar
  | verb (text : List Char)
  /-- After a backslash. -/
  | escape
  | set (word : Bool) (characters : List Char)
  /-- After a backslash in a set. -/
  | setEscape (word : Bool) (characters : List Char)

/-- A compiler that has read a part of an expression. The last items come first, as do the innermost
of the enclosing groups. -/
structure Compiler where
  mode : Mode
  current : List Item
  enclosing : List (List Item)

namespace Compiler

def start : Compiler := { mode := .normal, current := [], enclosing := [] }

def push (self : Compiler) (regex : Regex) (quantifiable : Quantifiable) : Compiler :=
  { self with mode := .normal, current := { regex, quantifiable } :: self.current }

def openGroup (self : Compiler) : Compiler :=
  { mode := .normal, current := [], enclosing := self.current :: self.enclosing }

/-- The items one after the other. -/
def sequenceOf (items : List Item) : Regex := Regex.sequence (items.reverse.map Item.regex)

def closeGroup (self : Compiler) : Option Compiler :=
  match self.enclosing with
  | [] => none
  | items :: enclosing =>
      some
        { mode := .normal
          current := { regex := sequenceOf self.current, quantifiable := .bare } :: items
          enclosing }

/-- Without something to repeat, an expression is not well-formed. -/
def star (self : Compiler) : Option Compiler :=
  match self.current with
  | { regex, quantifiable := .bare } :: items =>
      some
        { self with
          mode := .normal
          current := { regex := .many regex, quantifiable := .repeated } :: items }
  | _ => none

def plus (self : Compiler) : Option Compiler :=
  match self.current with
  | { regex, quantifiable := .bare } :: items =>
      some
        { self with
          mode := .normal
          current := { regex := .some regex, quantifiable := .repeated } :: items }
  | { regex, quantifiable := .repeated } :: items =>
      some
        { self with
          mode := .normal
          current := { regex := .possessive regex, quantifiable := .closed } :: items }
  | _ => none

def stepNormal (self : Compiler) (c : Char) : Option Compiler :=
  match c with
  | '\\' => some { self with mode := .escape }
  | '^' => some (self.push .startOfSubject .closed)
  | '$' => some (self.push .endOfSubject .closed)
  | '(' => some { self with mode := .opened }
  | ')' => self.closeGroup
  | '[' => some { self with mode := .set false [] }
  | '*' => self.star
  | '+' => self.plus
  | '.' | '?' | '|' | '{' => none
  | c => some (self.push (.oneOf (· == c)) .bare)

/-- Reads one more character. -/
def step (self : Compiler) (c : Char) : Option Compiler :=
  match self.mode with
  | .normal => self.stepNormal c
  | .opened =>
      if c = '*' then some { self with mode := .openedStar } else self.openGroup.stepNormal c
  | .openedStar =>
      -- A group that begins with a quantifier has nothing to repeat.
      if c.isAlpha || c == ':' then some { self with mode := .verb [c] } else none
  | .verb text =>
      if c = ')' then (verbOfText text).map fun verb => self.push (.verb verb) .closed
      else some { self with mode := .verb (text ++ [c]) }
  | .escape => if c.isAlphanum then none else some (self.push (.oneOf (· == c)) .bare)
  | .set word characters =>
      match c with
      | ']' => some (self.push (.oneOf (inSet word characters)) .bare)
      | '\\' => some { self with mode := .setEscape word characters }
      | '^' | '-' | '[' => none
      | c => some { self with mode := .set word (characters ++ [c]) }
  | .setEscape word characters =>
      if c = 'w' then some { self with mode := .set true characters }
      else if c.isAlphanum then none
      else some { self with mode := .set word (characters ++ [c]) }

def finish (self : Compiler) : Option Regex :=
  match self.mode, self.enclosing with
  | .normal, [] => some (sequenceOf self.current)
  | _, _ => none

end Compiler

def compile (expression : List Char) : Option Regex :=
  (expression.foldlM Compiler.step Compiler.start).bind Compiler.finish

/-- Whether an expression matches a subject. One that does not compile does not. -/
def reMatch (subject expression : List Char) : Bool :=
  (compile expression).any fun regex => regex.search subject

/-- The characters that do not stand for themselves. -/
def special : List Char := ['\\', '^', '$', '(', ')', '[', '*', '+', '.', '?', '|', '{']

theorem Compiler.stepNormal_literal (self : Compiler) {c : Char} (literal : c ∉ special) :
    self.stepNormal c = some (self.push (.oneOf (· == c)) .bare) := by
  unfold stepNormal
  split
  all_goals first | rfl | exact absurd (by decide) literal

/-- The text of a verb goes on to the next parenthesis that closes. -/
theorem Compiler.foldlM_verb {self : Compiler} {text more : List Char}
    (verb : self.mode = .verb text) (unclosed : ')' ∉ more) :
    more.foldlM step self = some { self with mode := .verb (text ++ more) } := by
  induction more generalizing self text with
  | nil =>
      rw [List.append_nil, ← verb]
      rfl
  | cons c more ih =>
      obtain ⟨other, others⟩ := not_or.mp (mt List.mem_cons.mpr unclosed)
      have first : self.step c = some { self with mode := .verb (text ++ [c]) } := by
        unfold step
        rw [verb]
        exact if_neg (Ne.symm other)
      rw [List.foldlM_cons, first]
      refine (ih rfl others).trans ?_
      rw [List.append_assoc, List.singleton_append]

/-- A verb is not repeated. -/
theorem Compiler.foldlM_verb_star {self : Compiler} {text : List Char}
    (verb : self.mode = .verb text) (rest : List Char) :
    (')' :: '*' :: rest).foldlM step self = none := by
  have first : self.step ')' =
      (verbOfText text).map fun verb => self.push (.verb verb) .closed := by
    unfold step
    rw [verb]
    exact if_pos rfl
  rw [List.foldlM_cons, first]
  cases verbOfText text <;> rfl

/-! ## What a compiled expression sees -/

/-- The characters that are operators outside sets. -/
def operators : List Char := ['(', ')', '*', '+', '^', '$']

/-- Neither in a set nor in an escape, as where a part of an expression ends. -/
def Mode.Outside : Mode → Prop
  | .normal | .opened | .openedStar | .verb _ => True
  | .escape | .set _ _ | .setEscape _ _ => False

section Blind

variable {replace : Char → Char}

theorem blind_sequence {regexes : List Regex}
    (blind : ∀ regex ∈ regexes, regex.Blind replace) : (Regex.sequence regexes).Blind replace := by
  induction regexes with
  | nil => trivial
  | cons regex regexes ih =>
      exact ⟨blind regex List.mem_cons_self,
        ih fun other member => blind other (List.mem_cons_of_mem _ member)⟩

/-- No item that was read tells a character from what it is replaced by. -/
structure Compiler.Blind (replace : Char → Char) (compiler : Compiler) : Prop where
  current : ∀ item ∈ compiler.current, item.regex.Blind replace
  enclosing : ∀ items ∈ compiler.enclosing, ∀ item ∈ items, item.regex.Blind replace

namespace Compiler.Blind

variable {self next : Compiler}

theorem sequenceOf {items : List Item} (blind : ∀ item ∈ items, item.regex.Blind replace) :
    (Compiler.sequenceOf items).Blind replace := by
  apply blind_sequence
  intro regex member
  obtain ⟨item, among, rfl⟩ := List.mem_map.mp member
  exact blind item (List.mem_reverse.mp among)

theorem push (blind : self.Blind replace) (regex : Regex) (own : regex.Blind replace)
    (quantifiable : Quantifiable) : (self.push regex quantifiable).Blind replace where
  current := List.forall_mem_cons.mpr ⟨own, blind.current⟩
  enclosing := blind.enclosing

theorem mode (blind : self.Blind replace) (mode : Mode) :
    { self with mode : Compiler }.Blind replace :=
  ⟨blind.current, blind.enclosing⟩

theorem openGroup (blind : self.Blind replace) : self.openGroup.Blind replace where
  current := nofun
  enclosing := List.forall_mem_cons.mpr ⟨blind.current, blind.enclosing⟩

theorem closeGroup (blind : self.Blind replace) (found : self.closeGroup = some next) :
    next.Blind replace ∧ next.mode.Outside := by
  obtain ⟨mode, current, enclosing⟩ := self
  cases enclosing with
  | nil => nomatch found
  | cons items enclosing =>
      obtain rfl := Option.some.inj found
      have own := sequenceOf blind.current
      obtain ⟨outer, others⟩ := List.forall_mem_cons.mp blind.enclosing
      exact ⟨⟨List.forall_mem_cons.mpr ⟨own, outer⟩, others⟩, trivial⟩

/-- What a quantifier makes of the last item. -/
theorem quantified (blind : self.Blind replace) {item : Item} {items : List Item}
    (listed : self.current = item :: items) (regex : Regex)
    (own : item.regex.Blind replace → regex.Blind replace) (quantifiable : Quantifiable) :
    Compiler.Blind replace
      { self with mode := .normal, current := { regex, quantifiable } :: items } := by
  obtain ⟨last, others⟩ := List.forall_mem_cons.mp (listed ▸ blind.current)
  exact ⟨List.forall_mem_cons.mpr ⟨own last, others⟩, blind.enclosing⟩

theorem star (blind : self.Blind replace) (found : self.star = some next) :
    next.Blind replace ∧ next.mode.Outside := by
  unfold Compiler.star at found
  split at found
  · rename_i regex items listed
    obtain rfl := Option.some.inj found
    exact ⟨blind.quantified listed (.many regex) id .repeated, trivial⟩
  · nomatch found

theorem plus (blind : self.Blind replace) (found : self.plus = some next) :
    next.Blind replace ∧ next.mode.Outside := by
  unfold Compiler.plus at found
  split at found
  · rename_i regex items listed
    obtain rfl := Option.some.inj found
    exact ⟨blind.quantified listed (.some regex) (fun own => ⟨own, own⟩) .repeated, trivial⟩
  · rename_i regex items listed
    obtain rfl := Option.some.inj found
    exact ⟨blind.quantified listed (.possessive regex) id .closed, trivial⟩
  · nomatch found

/-- An operator, and a literal that is neither replaced nor a replacement, add no item that sees a
replacement. -/
theorem stepNormal (blind : self.Blind replace) {c : Char} (escape : c ≠ '\\') (set : c ≠ '[')
    (told : c ∈ operators ∨ ∀ d, (replace d == c) = (d == c))
    (found : self.stepNormal c = some next) : next.Blind replace ∧ next.mode.Outside := by
  unfold Compiler.stepNormal at found
  split at found
  · exact absurd rfl escape
  · obtain rfl := Option.some.inj found
    exact ⟨blind.push .startOfSubject trivial .closed, trivial⟩
  · obtain rfl := Option.some.inj found
    exact ⟨blind.push .endOfSubject trivial .closed, trivial⟩
  · obtain rfl := Option.some.inj found
    exact ⟨blind.mode _, trivial⟩
  · exact blind.closeGroup found
  · exact absurd rfl set
  · exact blind.star found
  · exact blind.plus found
  · nomatch found
  · nomatch found
  · nomatch found
  · nomatch found
  · obtain rfl := Option.some.inj found
    have literal : c ∉ operators := by
      intro operator
      simp_all [operators]
    exact ⟨blind.push (.oneOf (· == c)) (told.resolve_left literal) .bare, trivial⟩

/-- The same for a character read in any mode outside sets and escapes. -/
theorem step (blind : self.Blind replace) (outside : self.mode.Outside) {c : Char}
    (escape : c ≠ '\\') (set : c ≠ '[') (told : c ∈ operators ∨ ∀ d, (replace d == c) = (d == c))
    (found : self.step c = some next) : next.Blind replace ∧ next.mode.Outside := by
  obtain ⟨mode, current, enclosing⟩ := self
  cases mode with
  | normal => exact blind.stepNormal escape set told found
  | opened =>
      unfold Compiler.step at found
      dsimp only at found
      split at found
      · obtain rfl := Option.some.inj found
        exact ⟨blind.mode _, trivial⟩
      · exact blind.openGroup.stepNormal escape set told found
  | openedStar =>
      unfold Compiler.step at found
      dsimp only at found
      split at found
      · obtain rfl := Option.some.inj found
        exact ⟨blind.mode _, trivial⟩
      · nomatch found
  | verb text =>
      unfold Compiler.step at found
      dsimp only at found
      split at found
      · obtain ⟨verb, _, rfl⟩ := Option.map_eq_some_iff.mp found
        exact ⟨blind.push (.verb verb) trivial .closed, trivial⟩
      · obtain rfl := Option.some.inj found
        exact ⟨blind.mode _, trivial⟩
  | escape => exact outside.elim
  | set word characters => exact outside.elim
  | setEscape word characters => exact outside.elim

/-- An escaped character that is neither replaced nor a replacement. -/
theorem step_escape (blind : self.Blind replace) (outside : self.mode.Outside) {c : Char}
    (escape : c ≠ '\\') (set : c ≠ '[') (told : ∀ d, (replace d == c) = (d == c))
    (found : ['\\', c].foldlM Compiler.step self = some next) :
    next.Blind replace ∧ next.mode.Outside := by
  obtain ⟨middle, first, found⟩ := Option.bind_eq_some_iff.mp found
  obtain ⟨last, second, found⟩ := Option.bind_eq_some_iff.mp found
  obtain rfl := Option.some.inj found
  have escaped {compiler : Compiler} (blind : compiler.Blind replace)
      (second : Compiler.step { compiler with mode := .escape } c = some last) :
      last.Blind replace ∧ last.mode.Outside := by
    unfold Compiler.step at second
    dsimp only at second
    split at second
    · nomatch second
    · obtain rfl := Option.some.inj second
      exact ⟨(blind.mode _).push (.oneOf (· == c)) told .bare, trivial⟩
  obtain ⟨mode, current, enclosing⟩ := self
  cases mode with
  | normal =>
      obtain rfl := Option.some.inj first
      exact escaped blind second
  | opened =>
      obtain rfl := Option.some.inj first
      exact escaped blind.openGroup second
  | openedStar => nomatch first
  | verb text =>
      obtain rfl := Option.some.inj first
      exact (blind.mode (.verb (text ++ ['\\']))).step trivial escape set (.inr told) second
  | escape => exact outside.elim
  | set word characters => exact outside.elim
  | setEscape word characters => exact outside.elim

theorem finish (blind : self.Blind replace) {regex : Regex} (found : self.finish = some regex) :
    regex.Blind replace := by
  unfold Compiler.finish at found
  split at found
  · obtain rfl := Option.some.inj found
    exact sequenceOf blind.current
  · nomatch found

end Compiler.Blind

end Blind

end RegexSyntax

end Foundation
